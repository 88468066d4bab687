import RdpProxy.Lib.Steps
import RdpProxy.Portal.ServerAccess

/-!
# Who gets a token (`portal/routes/auth.py`, `portal/routes/servers.py`)

A download waits for the database twice: between the lookup of its session, the read of its server and the new
token anything else may happen, a logout or a change of the server too.
-/

open RedisKey Steps Words

namespace RdpProxy.Portal

open Admin Rdp Store

/-! ## The source -/

/-- The arguments of `create_session` in `rdp_download`. -/
def tokenRequest (session : WebSessionData) (s : RdpServer) : RedisSessionStore.TokenRequest where
  username := session.username
  password := session.password
  targetHost := String.ofList s.address
  targetPort := s.port
  serverId := some (String.ofList s.id.str)
  serverDisplay := some (String.ofList s.displayName)

def groupGuids (session : WebSessionData) : List (List Char) := session.groupGuids.map String.toList

/-- `get_current_session` -/
def getCurrentSession (store : RedisSessionStore) (r : Redis) (cookie : List Char) (fingerprint : String) (now : Int)
    (contended : Bool) : Redis × Except LookupError (Option WebSessionData) :=
  if cookie = [] then (r, .ok none) else store.getWebSession r cookie fingerprint now contended

structure RdpFile where
  content : List Char
  contentDisposition : List Char

/-- Where a request for `/rdp/{server_id}` is. -/
inductive Download where
  | idle
  | authenticated (session : WebSessionData) (serverId : List Char)
  | admitted (session : WebSessionData) (serverId : List Char) (server : RdpServer)
  | answered (answer : Except HttpError RdpFile)

/-- The route takes one segment of a path. -/
def isSegment (serverId : List Char) : Bool := serverId ≠ [] ∧ '/' ∉ serverId

/-- `require_session`, for a request for a server. -/
def requireSession (serverId : List Char) : Except LookupError (Option WebSessionData) → Download
  | .ok (some session) => .authenticated session serverId
  | .ok none => .answered (.error ⟨401, "Not authenticated"⟩)
  | .error _ => .answered (.error internalError)

def readServer (t : ServerTable) (session : WebSessionData) (serverId : List Char) : Download :=
  match admitServer (serverNamed t serverId) (groupGuids session) with
  | .ok server => .admitted session serverId server
  | .error e => .answered (.error e)

/-- A header is written in latin-1, and goes out without control characters but the tab. -/
def isHeaderChar (c : Char) : Bool := c.toNat < 256 ∧ (32 ≤ c.toNat ∨ c = '\t') ∧ c.toNat ≠ 127

def contentDisposition (serverId : List Char) : List Char :=
  "attachment; filename=\"".toList ++ serverId ++ ".rdp\"".toList

/-- `PlainTextResponse` with the name of the file in its header -/
def plainTextResponse (serverId content : List Char) : Except HttpError RdpFile :=
  let header := contentDisposition serverId
  if header.all isHeaderChar then .ok ⟨content, header⟩ else .error internalError

/-- What `build_rdp_content` reads. -/
structure RdpSettings where
  templates : List RdpTemplate
  publicHost : List Char
  publicPort : List Char

structure PortalState (ι : Type) where
  redis : Redis
  servers : ServerTable
  download : ι → Download

/-- `login` is a login that the directory has let in, with what it says of the user. A key is deleted by the routes
that kill a session and by a relay that starts. -/
inductive PortalAct (ι : Type) where
  | login (sessionId : SessionId) (nonce : Nonce) (q : RedisSessionStore.WebLogin) (now : Int)
  | logout (cookie : List Char)
  | index (cookie : List Char) (fingerprint : String) (now : Int) (contended : Bool)
  | requireSession (i : ι) (cookie : List Char) (fingerprint : String) (now : Int) (contended : Bool)
      (serverId : List Char)
  | readServer (i : ι)
  | createSession (i : ι) (token : SessionId) (nonce : Nonce) (settings : RdpSettings)
  | setTokenFingerprint (token : List Char) (fingerprint : String)
  | deleteKey (key : List Char)
  | changeServers (a : ServerAct)
  | tick (ms : Nat)

section

variable {ι : Type} [DecidableEq ι] (store : RedisSessionStore) (decimal : Char → Option Nat)

def PortalState.setDownload (s : PortalState ι) (i : ι) (d : Download) : PortalState ι :=
  { s with download := Function.update s.download i d }

def portalStep (s : PortalState ι) : PortalAct ι → Option (PortalState ι)
  | .login sessionId nonce q now => some { s with redis := store.createWebSession s.redis sessionId nonce q now }
  | .logout cookie =>
    some { s with redis := if cookie = [] then s.redis else RedisSessionStore.deleteWebSession s.redis cookie }
  | .index cookie fingerprint now contended =>
    some { s with redis := (getCurrentSession store s.redis cookie fingerprint now contended).1 }
  | .requireSession i cookie fingerprint now contended serverId =>
    match s.download i with
    | .idle =>
      if isSegment serverId then
        let (redis, found) := getCurrentSession store s.redis cookie fingerprint now contended
        some ({ s with redis := redis }.setDownload i (requireSession serverId found))
      else some (s.setDownload i (.answered (.error ⟨404, "Not Found"⟩)))
    | _ => none
  | .readServer i =>
    match s.download i with
    | .authenticated session serverId => some (s.setDownload i (readServer s.servers session serverId))
    | _ => none
  | .createSession i token nonce settings =>
    match s.download i with
    | .admitted session serverId server =>
      let content := buildRdpContent (some settings.templates) (groupGuids session) settings.publicHost
        settings.publicPort token.text
      some ({ s with redis := store.createSession s.redis token nonce (tokenRequest session server) }.setDownload i
        (.answered (plainTextResponse serverId content)))
    | _ => none
  | .setTokenFingerprint token fingerprint => some { s with redis := store.setTokenFingerprint s.redis token fingerprint }
  | .deleteKey key => some { s with redis := s.redis.delete key }
  | .changeServers a => some { s with servers := s.servers.act decimal a }
  | .tick ms => some { s with redis := s.redis.tick ms }

def PortalState.start (clock : Nat) (servers : ServerTable) : PortalState ι :=
  ⟨Keyspace.empty clock, servers, fun _ => .idle⟩

/-! ## What a token stands for -/

variable (s₀ : PortalState ι) (ls : List (PortalAct ι))

/-- The directory let the user in, and the browser has not logged out since. -/
def LoggedIn (cookie : List Char) (q : RedisSessionStore.WebLogin) : Prop :=
  ∃ before after sessionId nonce now, ls = before ++ .login sessionId nonce q now :: after ∧
    sessionId.text = cookie ∧ (cookie ≠ [] → .logout cookie ∉ after)

/-- The request came with the cookie of a login, from the browser of the login. -/
def Authenticated (i : ι) (q : RedisSessionStore.WebLogin) (session : WebSessionData) (serverId : List Char) : Prop :=
  ∃ before after cookie fingerprint now contended,
    ls = before ++ .requireSession i cookie fingerprint now contended serverId :: after ∧
    cookie ≠ [] ∧ LoggedIn before cookie q ∧ session = q.session cookie ∧
    (contended = true ∨ store.fingerprintDigest fingerprint = store.fingerprintDigest q.browserFingerprint)

/-- When the request read its server, this was the row, and the user could see it. -/
def Admitted (i : ι) (q : RedisSessionStore.WebLogin) (session : WebSessionData) (server : RdpServer) : Prop :=
  ∃ before after serverId s₁, ls = before ++ .readServer i :: after ∧ Authenticated store before i q session serverId ∧
    run (portalStep store decimal) s₀ before = some s₁ ∧ server ∈ s₁.servers.rows ∧ server.techName = serverId ∧
    server.isEnabled = true ∧ (server.groups = [] ∨ ∃ g ∈ server.groups, g.str ∈ groupSet (groupGuids session))

/-- The token was made for a request that had been admitted to a server. -/
def Granted (token : SessionId) (q : RedisSessionStore.WebLogin) (session : WebSessionData) (server : RdpServer) : Prop :=
  ∃ before after i nonce settings, ls = before ++ .createSession i token nonce settings :: after ∧
    Admitted store decimal s₀ before i q session server

end

/-! ## Redis -/

/-- The key is gone, or it has the payload of a login with `P` and some stamp. -/
def WebHeld (store : RedisSessionStore) (P : RedisSessionStore.WebLogin → Prop) (sid : List Char)
    (key : Key (List Char)) : Prop :=
  key.get = none ∨ ∃ sessionId nonce q created ts, sessionId.text = sid ∧ P q ∧
    key.get = some (WebPayload.text ((store.webPayload sessionId nonce q created).touch ts))

/-- The key is gone, or it has the payload of a token with `P` and some fingerprint. -/
def TokenHeld (store : RedisSessionStore) (P : SessionId → WebSessionData → RdpServer → Prop) (token : List Char)
    (key : Key (List Char)) : Prop :=
  key.get = none ∨ ∃ id nonce session server d, id.text = token ∧ P id session server ∧
    key.get = some (TokenPayload.text { store.tokenPayload id nonce (tokenRequest session server) with fingerprint := d })

/-- What happens to Redis where nothing is minted. -/
inductive Quiet (store : RedisSessionStore) (r : Redis) : Redis → Prop where
  | same : Quiet store r r
  | delete (key : List Char) : Quiet store r (r.delete key)
  | act (a : RedisSessionStore.SessionAct) (h : a.mints = none) : Quiet store r (store.act r a)

section

variable {store : RedisSessionStore} {r r' : Redis} {P P' : RedisSessionStore.WebLogin → Prop}
  {T T' : SessionId → WebSessionData → RdpServer → Prop}

theorem WebHeld.mono {sid : List Char} {key : Key (List Char)} (h : WebHeld store P sid key) (hP : ∀ q, P q → P' q) :
    WebHeld store P' sid key := by
  refine h.imp_right ?_
  rintro ⟨sessionId, nonce, q, created, ts, hid, hq, hget⟩
  exact ⟨sessionId, nonce, q, created, ts, hid, hP q hq, hget⟩

theorem TokenHeld.mono {token : List Char} {key : Key (List Char)} (h : TokenHeld store T token key)
    (hT : ∀ id session server, T id session server → T' id session server) : TokenHeld store T' token key := by
  refine h.imp_right ?_
  rintro ⟨id, nonce, session, server, d, hid, ht, hget⟩
  exact ⟨id, nonce, session, server, d, hid, hT id session server ht, hget⟩

theorem get_delete_none {key other : List Char} (h : (r.keys key).get = none) :
    ((r.delete other).keys key).get = none := by
  by_cases hkey : key = other
  · subst hkey
    exact r.get_keys_delete key
  · rw [r.keys_delete_of_ne hkey]
    exact h

theorem act_get_none {a : RedisSessionStore.SessionAct} {key : List Char} (hmint : a.mints = none)
    (h : (r.keys key).get = none) : ((store.act r a).keys key).get = none := by
  by_cases hkey : a.key = some key
  · cases a with
    | createSession token nonce q => cases hmint
    | createWebSession sessionId nonce q now => cases hmint
    | setTokenFingerprint token fingerprint =>
      obtain rfl := Option.some.inj hkey
      rw [RedisSessionStore.act, RedisSessionStore.setTokenFingerprint, Keyspace.raw_of_none h]
      exact h
    | deleteSession token =>
      obtain rfl := Option.some.inj hkey
      exact r.get_keys_delete _
    | getWebSession sessionId fingerprint now contended =>
      obtain rfl := Option.some.inj hkey
      rw [RedisSessionStore.act, RedisSessionStore.getWebSession_of_none h]
      exact h
    | deleteWebSession sessionId =>
      obtain rfl := Option.some.inj hkey
      exact r.get_keys_delete _
    | tick ms => cases hkey
  · have hframe : ((store.act r a).keys key).get = none ∨ (store.act r a).keys key = r.keys key :=
      RedisSessionStore.act_frame hkey
    rcases hframe with hnone | hsame
    · exact hnone
    · rw [hsame]
      exact h

theorem Quiet.web {sid : List Char} (h : Quiet store r r') (hheld : WebHeld store P sid (r.keys (webKeyOf sid))) :
    WebHeld store P sid (r'.keys (webKeyOf sid)) := by
  rcases hheld with hnone | ⟨sessionId, nonce, q, created, ts, rfl, hq, hget⟩
  · left
    cases h with
    | same => exact hnone
    | delete key => exact get_delete_none hnone
    | act a hmint => exact act_get_none hmint hnone
  · have hkept : RedisSessionStore.WebKept (store.webPayload sessionId nonce q created)
        (r'.keys (webKeyOf sessionId.text)) := by
      have hbefore : RedisSessionStore.WebKept (store.webPayload sessionId nonce q created)
          (r.keys (webKeyOf sessionId.text)) := Or.inr ⟨ts, hget⟩
      cases h with
      | same => exact hbefore
      | delete key =>
        by_cases hkey : webKeyOf sessionId.text = key
        · subst hkey
          exact Or.inl (r.get_keys_delete _)
        · rw [r.keys_delete_of_ne hkey]
          exact hbefore
      | act a hmint => exact RedisSessionStore.act_webKept (by rw [hmint]; exact Option.some_ne_none _ |>.symm) hbefore
    rcases hkept with hgone | ⟨ts', hget'⟩
    · exact Or.inl hgone
    · exact Or.inr ⟨sessionId, nonce, q, created, ts', rfl, hq, hget'⟩

theorem Quiet.token {token : List Char} (h : Quiet store r r')
    (hheld : TokenHeld store T token (r.keys (tokenKeyOf token))) :
    TokenHeld store T token (r'.keys (tokenKeyOf token)) := by
  rcases hheld with hnone | ⟨id, nonce, session, server, d, rfl, ht, hget⟩
  · left
    cases h with
    | same => exact hnone
    | delete key => exact get_delete_none hnone
    | act a hmint => exact act_get_none hmint hnone
  · have hkept : RedisSessionStore.TokenKept (store.tokenPayload id nonce (tokenRequest session server))
        (r'.keys (tokenKeyOf id.text)) := by
      have hbefore : RedisSessionStore.TokenKept (store.tokenPayload id nonce (tokenRequest session server))
          (r.keys (tokenKeyOf id.text)) := Or.inr ⟨d, hget⟩
      cases h with
      | same => exact hbefore
      | delete key =>
        by_cases hkey : tokenKeyOf id.text = key
        · subst hkey
          exact Or.inl (r.get_keys_delete _)
        · rw [r.keys_delete_of_ne hkey]
          exact hbefore
      | act a hmint => exact RedisSessionStore.act_tokenKept (by rw [hmint]; exact (Option.some_ne_none _).symm) hbefore
    rcases hkept with hgone | ⟨d', hget'⟩
    · exact Or.inl hgone
    · exact Or.inr ⟨id, nonce, session, server, d', rfl, ht, hget'⟩

theorem getCurrentSession_quiet (cookie : List Char) (fingerprint : String) (now : Int) (contended : Bool) :
    Quiet store r (getCurrentSession store r cookie fingerprint now contended).1 := by
  unfold getCurrentSession
  split_ifs
  · exact .same
  · exact .act (.getWebSession cookie fingerprint now contended) rfl

theorem getCurrentSession_found {cookie : List Char} {fingerprint : String} {now : Int} {contended : Bool}
    {session : WebSessionData} (hheld : WebHeld store P cookie (r.keys (webKeyOf cookie)))
    (h : (getCurrentSession store r cookie fingerprint now contended).2 = .ok (some session)) :
    cookie ≠ [] ∧ ∃ q, P q ∧ session = q.session cookie ∧
      (contended = true ∨ store.fingerprintDigest fingerprint = store.fingerprintDigest q.browserFingerprint) := by
  unfold getCurrentSession at h
  split_ifs at h with hcookie
  · cases h
  · refine ⟨hcookie, ?_⟩
    rcases hheld with hnone | ⟨sessionId, nonce, q, created, ts, rfl, hq, hget⟩
    · rw [RedisSessionStore.getWebSession_of_none hnone] at h
      cases h
    · rw [RedisSessionStore.getWebSession_of_login hget] at h
      have hlet : contended = true ∨ store.Admits fingerprint now
          (Payload.touch (store.webPayload sessionId nonce q created) ts) := by
        by_contra hno
        rw [if_neg hno] at h
        cases h
      rw [if_pos hlet] at h
      refine ⟨q, hq, (Option.some.inj (Except.ok.inj h)).symm, hlet.imp_right ?_⟩
      rintro ⟨hfingerprint, _⟩
      rcases hfingerprint with hnone | hsame
      · cases hnone
      · exact (Option.some.inj hsame).symm

end

/-! ## A download -/

section

variable {ι : Type} [DecidableEq ι] {store : RedisSessionStore} {decimal : Char → Option Nat} {s : PortalState ι} {i : ι}
  {session : WebSessionData} {server : RdpServer} {serverId : List Char}

theorem step_requireSession {cookie : List Char} {fingerprint : String} {now : Int} {contended : Bool}
    (hi : s.download i = .idle) (hsegment : isSegment serverId = true)
    (hfound : (getCurrentSession store s.redis cookie fingerprint now contended).2 = .ok (some session)) :
    portalStep store decimal s (.requireSession i cookie fingerprint now contended serverId) =
      some ({ s with redis := (getCurrentSession store s.redis cookie fingerprint now contended).1 }.setDownload i
        (.authenticated session serverId)) := by
  rw [portalStep, hi]
  dsimp only
  rw [if_pos hsegment, hfound]
  rfl

theorem step_readServer (hi : s.download i = .authenticated session serverId)
    (hallowed : admitServer (serverNamed s.servers serverId) (groupGuids session) = .ok server) :
    portalStep store decimal s (.readServer i) = some (s.setDownload i (.admitted session serverId server)) := by
  rw [portalStep, hi]
  dsimp only
  rw [readServer, hallowed]

def rdpContent (session : WebSessionData) (settings : RdpSettings) (token : SessionId) : List Char :=
  buildRdpContent (some settings.templates) (groupGuids session) settings.publicHost settings.publicPort token.text

theorem step_createSession (hi : s.download i = .admitted session serverId server) (token : SessionId) (nonce : Nonce)
    (settings : RdpSettings) :
    portalStep store decimal s (.createSession i token nonce settings) =
      some ({ s with redis := store.createSession s.redis token nonce (tokenRequest session server) }.setDownload i
        (.answered (plainTextResponse serverId (rdpContent session settings token)))) := by
  rw [portalStep, hi]
  rfl

theorem found_after_login {sessionId : SessionId} (hid : sessionId.text ≠ []) (r : Redis) (nonce : Nonce)
    (q : RedisSessionStore.WebLogin) {created now : Int} (hidle : now - created ≤ store.webIdleTtl) (contended : Bool) :
    (getCurrentSession store (store.createWebSession r sessionId nonce q created) sessionId.text q.browserFingerprint now
      contended).2 = .ok (some (q.session sessionId.text)) := by
  have hget : ((store.createWebSession r sessionId nonce q created).keys (webKeyOf sessionId.text)).get =
      some (WebPayload.text ((store.webPayload sessionId nonce q created).touch created)) := r.get_keys_setex _ _ _
  rw [getCurrentSession, if_neg hid, RedisSessionStore.getWebSession_of_login hget,
    if_pos (Or.inr ⟨Or.inr rfl, hidle⟩)]

/-- What the relay finds for a token of this download. -/
def relayed (q : RedisSessionStore.WebLogin) (server : RdpServer) (token : List Char) (d : Option HexDigest) :
    SessionData where
  token := token
  username := q.username
  targetHost := String.ofList server.address
  targetPort := server.port
  password := q.password
  fingerprint := d
  serverId := some (String.ofList server.id.str)
  serverDisplay := some (String.ofList server.displayName)

variable (decimal) in
theorem run_download {sessionId : SessionId} {q : RedisSessionStore.WebLogin} {created now : Int}
    (hi : s.download i = .idle) (hid : sessionId.text ≠ []) (hidle : now - created ≤ store.webIdleTtl)
    (hserver : server ∈ s.servers.rows) (hsegment : isSegment server.techName = true)
    (hshown : Shown (q.groupGuids.map String.toList) server = true) (nonce nonce' : Nonce) (token : SessionId)
    (settings : RdpSettings) :
    ∃ s', run (portalStep store decimal) s [.login sessionId nonce q created,
        .requireSession i sessionId.text q.browserFingerprint now false server.techName, .readServer i,
        .createSession i token nonce' settings] = some s' ∧
      s'.download i =
        .answered (plainTextResponse server.techName (rdpContent (q.session sessionId.text) settings token)) ∧
      (s'.redis.keys (tokenKeyOf token.text)).get = some (TokenPayload.text
        (store.tokenPayload token nonce' (tokenRequest (q.session sessionId.text) server))) := by
  have hallowed :
      admitServer (serverNamed s.servers server.techName) (groupGuids (q.session sessionId.text)) = .ok server :=
    admitServer_named_iff.mpr ⟨hserver, rfl, hshown⟩
  let s₁ : PortalState ι := { s with redis := store.createWebSession s.redis sessionId nonce q created }
  let redis := (getCurrentSession store s₁.redis sessionId.text q.browserFingerprint now false).1
  let s₂ : PortalState ι := { s₁ with redis := redis }.setDownload i
    (.authenticated (q.session sessionId.text) server.techName)
  let s₃ : PortalState ι := s₂.setDownload i (.admitted (q.session sessionId.text) server.techName server)
  let request := tokenRequest (q.session sessionId.text) server
  let s₄ : PortalState ι := { s₃ with redis := store.createSession s₃.redis token nonce' request }.setDownload i
    (.answered (plainTextResponse server.techName (rdpContent (q.session sessionId.text) settings token)))
  have hlogin : portalStep store decimal s (.login sessionId nonce q created) = some s₁ := rfl
  have hrequire : portalStep store decimal s₁
      (.requireSession i sessionId.text q.browserFingerprint now false server.techName) = some s₂ :=
    step_requireSession hi hsegment (found_after_login hid s.redis nonce q hidle false)
  have hread : portalStep store decimal s₂ (.readServer i) = some s₃ :=
    step_readServer (Function.update_self i _ s₁.download) hallowed
  have hcreate : portalStep store decimal s₃ (.createSession i token nonce' settings) = some s₄ :=
    step_createSession (Function.update_self i _ s₂.download) token nonce' settings
  refine ⟨s₄, ?_, ?_, ?_⟩
  · exact run_cons_eq_some.mpr ⟨s₁, hlogin, run_cons_eq_some.mpr ⟨s₂, hrequire, run_cons_eq_some.mpr ⟨s₃, hread,
      run_cons_eq_some.mpr ⟨s₄, hcreate, rfl⟩⟩⟩⟩
  · exact Function.update_self i _ s₃.download
  · exact s₃.redis.get_keys_setex _ _ _

theorem getSession_of_download {r : Redis} {q : RedisSessionStore.WebLogin} {cookie : List Char} {token : SessionId}
    {nonce : Nonce} (h : (r.keys (tokenKeyOf token.text)).get =
      some (TokenPayload.text (store.tokenPayload token nonce (tokenRequest (q.session cookie) server)))) :
    store.getSession r token.text = .ok (some (relayed q server token.text none)) := by
  have hfresh : ∀ p : TokenPayload, p.fingerprint = none → { p with fingerprint := none } = p := by
    rintro ⟨⟩ rfl
    rfl
  rw [← hfresh (store.tokenPayload token nonce (tokenRequest (q.session cookie) server)) rfl] at h
  rw [RedisSessionStore.getSession_of_text h]
  rfl

end

/-! ## Runs -/

section

variable {ι : Type} {store : RedisSessionStore} {decimal : Char → Option Nat} {s₀ s s' : PortalState ι}
  {ls : List (PortalAct ι)} {l : PortalAct ι} {i : ι} {q : RedisSessionStore.WebLogin} {session : WebSessionData}
  {server : RdpServer} {cookie serverId : List Char}

theorem LoggedIn.append (h : LoggedIn ls cookie q) (hl : cookie ≠ [] → l ≠ .logout cookie) :
    LoggedIn (ls ++ [l]) cookie q := by
  obtain ⟨before, after, sessionId, nonce, now, rfl, hid, hout⟩ := h
  refine ⟨before, after ++ [l], sessionId, nonce, now, by simp, hid, fun hne => ?_⟩
  rw [List.mem_append, List.mem_singleton]
  rintro (hmem | rfl)
  · exact hout hne hmem
  · exact hl hne rfl

theorem Authenticated.append (h : Authenticated store ls i q session serverId) (l : PortalAct ι) :
    Authenticated store (ls ++ [l]) i q session serverId := by
  obtain ⟨before, after, cookie, fingerprint, now, contended, rfl, hrest⟩ := h
  exact ⟨before, after ++ [l], cookie, fingerprint, now, contended, by simp, hrest⟩

variable [DecidableEq ι]

theorem Admitted.append (h : Admitted store decimal s₀ ls i q session server) (l : PortalAct ι) :
    Admitted store decimal s₀ (ls ++ [l]) i q session server := by
  obtain ⟨before, after, serverId, s₁, rfl, hrest⟩ := h
  exact ⟨before, after ++ [l], serverId, s₁, by simp, hrest⟩

theorem Granted.append {token : SessionId} (h : Granted store decimal s₀ ls token q session server) (l : PortalAct ι) :
    Granted store decimal s₀ (ls ++ [l]) token q session server := by
  obtain ⟨before, after, i, nonce, settings, rfl, hrest⟩ := h
  exact ⟨before, after ++ [l], i, nonce, settings, by simp, hrest⟩

variable (store decimal s₀ ls)

def DownloadKnown (i : ι) : Download → Prop
  | .authenticated session serverId => ∃ q, Authenticated store ls i q session serverId
  | .admitted session _ server => ∃ q, Admitted store decimal s₀ ls i q session server
  | _ => True

/-- Everything that is held goes back to a login, a request or a read of the history. -/
structure Known (s : PortalState ι) : Prop where
  web : ∀ cookie, WebHeld store (LoggedIn ls cookie) cookie (s.redis.keys (webKeyOf cookie))
  token : ∀ token, TokenHeld store (fun id session server => ∃ q, Granted store decimal s₀ ls id q session server) token
    (s.redis.keys (tokenKeyOf token))
  download : ∀ i, DownloadKnown store decimal s₀ ls i (s.download i)

variable {store decimal s₀ ls}

theorem DownloadKnown.append {d : Download} (h : DownloadKnown store decimal s₀ ls i d) (l : PortalAct ι) :
    DownloadKnown store decimal s₀ (ls ++ [l]) i d := by
  cases d with
  | authenticated session serverId => exact h.imp fun q hq => hq.append l
  | admitted session serverId server => exact h.imp fun q hq => hq.append l
  | idle => trivial
  | answered answer => trivial

theorem DownloadKnown.update (h : Known store decimal s₀ ls s) {d : Download}
    (hd : DownloadKnown store decimal s₀ (ls ++ [l]) i d) (j : ι) :
    DownloadKnown store decimal s₀ (ls ++ [l]) j (Function.update s.download i d j) := by
  by_cases hj : j = i
  · subst hj
    rw [Function.update_self]
    exact hd
  · rw [Function.update_of_ne hj]
    exact (h.download j).append l

theorem Known.quiet (h : Known store decimal s₀ ls s) (hout : ∀ cookie, l ≠ .logout cookie)
    (hredis : Quiet store s.redis s'.redis)
    (hdownload : ∀ j, DownloadKnown store decimal s₀ (ls ++ [l]) j (s'.download j)) :
    Known store decimal s₀ (ls ++ [l]) s' where
  web cookie := (hredis.web (h.web cookie)).mono fun _ hq => hq.append fun _ => hout cookie
  token token := (hredis.token (h.token token)).mono fun _ _ _ hgrant => hgrant.imp fun _ hq => hq.append l
  download := hdownload

theorem Known.login (h : Known store decimal s₀ ls s) (sessionId : SessionId) (nonce : Nonce)
    (q : RedisSessionStore.WebLogin) (now : Int) :
    Known store decimal s₀ (ls ++ [.login sessionId nonce q now])
      { s with redis := store.createWebSession s.redis sessionId nonce q now } where
  web cookie := by
    by_cases hcookie : cookie = sessionId.text
    · subst hcookie
      refine Or.inr ⟨sessionId, nonce, q, now, now, rfl, ?_, s.redis.get_keys_setex _ _ _⟩
      exact ⟨ls, [], sessionId, nonce, now, rfl, rfl, fun _ => List.not_mem_nil⟩
    · have hkey : webKeyOf cookie ≠ webKeyOf sessionId.text := fun he => hcookie (RedisSessionStore.webKeyOf_injective he)
      dsimp only [RedisSessionStore.createWebSession]
      rw [s.redis.keys_setex_of_ne hkey]
      exact (h.web cookie).mono fun _ hq => hq.append (by simp)
  token token := by
    dsimp only [RedisSessionStore.createWebSession]
    rw [s.redis.keys_setex_of_ne (RedisSessionStore.tokenKeyOf_ne_webKeyOf _ _)]
    exact (h.token token).mono fun _ _ _ hgrant => hgrant.imp fun _ hq => hq.append _
  download i := (h.download i).append _

theorem Known.logout (h : Known store decimal s₀ ls s) (cookie : List Char) :
    Known store decimal s₀ (ls ++ [.logout cookie])
      { s with redis := if cookie = [] then s.redis else RedisSessionStore.deleteWebSession s.redis cookie } where
  web other := by
    by_cases hblank : cookie = []
    · dsimp only
      rw [if_pos hblank]
      refine (h.web other).mono fun _ hq => hq.append fun hne heq => hne ?_
      cases heq
      exact hblank
    · dsimp only
      rw [if_neg hblank]
      by_cases hother : other = cookie
      · subst hother
        exact Or.inl (s.redis.get_keys_delete _)
      · have hkey : webKeyOf other ≠ webKeyOf cookie := fun he => hother (RedisSessionStore.webKeyOf_injective he)
        rw [RedisSessionStore.deleteWebSession, s.redis.keys_delete_of_ne hkey]
        refine (h.web other).mono fun _ hq => hq.append fun _ heq => hother ?_
        cases heq
        rfl
  token token := by
    have hquiet : Quiet store s.redis
        (if cookie = [] then s.redis else RedisSessionStore.deleteWebSession s.redis cookie) := by
      split_ifs
      · exact .same
      · exact .delete _
    exact (hquiet.token (h.token token)).mono fun _ _ _ hgrant => hgrant.imp fun _ hq => hq.append _
  download i := (h.download i).append _

theorem Known.requireSession (h : Known store decimal s₀ ls s) (i : ι) (cookie : List Char) (fingerprint : String)
    (now : Int) (contended : Bool) (serverId : List Char) :
    DownloadKnown store decimal s₀ (ls ++ [.requireSession i cookie fingerprint now contended serverId]) i
      (requireSession serverId (getCurrentSession store s.redis cookie fingerprint now contended).2) := by
  rcases hfound : (getCurrentSession store s.redis cookie fingerprint now contended).2 with e | _ | session
  · trivial
  · trivial
  · obtain ⟨hcookie, q, hq, hsession, hbrowser⟩ := getCurrentSession_found (h.web cookie) hfound
    exact ⟨q, ls, [], cookie, fingerprint, now, contended, rfl, hcookie, hq, hsession, hbrowser⟩

theorem Known.readServer (h : Known store decimal s₀ ls s) (hrun : run (portalStep store decimal) s₀ ls = some s)
    (hi : s.download i = .authenticated session serverId) :
    DownloadKnown store decimal s₀ (ls ++ [.readServer i]) i (readServer s.servers session serverId) := by
  have hknown := h.download i
  rw [hi] at hknown
  obtain ⟨q, hq⟩ := hknown
  unfold Portal.readServer
  cases hallowed : admitServer (serverNamed s.servers serverId) (groupGuids session) with
  | error e => trivial
  | ok server =>
    obtain ⟨hrow, hname, hshown⟩ := admitServer_named_iff.mp hallowed
    obtain ⟨henabled, hvisible⟩ := (Bool.and_eq_true _ _).mp hshown
    exact ⟨q, ls, [], serverId, s, rfl, hq, hrun, hrow, hname, henabled, (serverVisible_iff server _).mp hvisible⟩

theorem Known.createSession (h : Known store decimal s₀ ls s) (hi : s.download i = .admitted session serverId server)
    (token : SessionId) (nonce : Nonce) (settings : RdpSettings) (answer : Except HttpError RdpFile) :
    Known store decimal s₀ (ls ++ [.createSession i token nonce settings])
      ({ s with redis := store.createSession s.redis token nonce (tokenRequest session server) }.setDownload i
        (.answered answer)) where
  web cookie := by
    have hkey : webKeyOf cookie ≠ tokenKeyOf token.text := (RedisSessionStore.tokenKeyOf_ne_webKeyOf _ _).symm
    dsimp only [PortalState.setDownload, RedisSessionStore.createSession]
    rw [s.redis.keys_setex_of_ne hkey]
    exact (h.web cookie).mono fun _ hq => hq.append (by simp)
  token other := by
    by_cases hother : other = token.text
    · subst hother
      have hknown := h.download i
      rw [hi] at hknown
      obtain ⟨q, hq⟩ := hknown
      refine Or.inr ⟨token, nonce, session, server, none, rfl, ⟨q, ?_⟩, s.redis.get_keys_setex _ _ _⟩
      exact ⟨ls, [], i, nonce, settings, rfl, hq⟩
    · have hkey : tokenKeyOf other ≠ tokenKeyOf token.text := fun he =>
        hother (RedisSessionStore.tokenKeyOf_injective he)
      dsimp only [PortalState.setDownload, RedisSessionStore.createSession]
      rw [s.redis.keys_setex_of_ne hkey]
      exact (h.token other).mono fun _ _ _ hgrant => hgrant.imp fun _ hq => hq.append _
  download j := DownloadKnown.update (d := .answered answer) h trivial j

theorem step_known (hrun : run (portalStep store decimal) s₀ ls = some s) (h : Known store decimal s₀ ls s)
    (hstep : portalStep store decimal s l = some s') : Known store decimal s₀ (ls ++ [l]) s' := by
  cases l with
  | login sessionId nonce q now =>
    cases hstep
    exact h.login sessionId nonce q now
  | logout cookie =>
    cases hstep
    exact h.logout cookie
  | index cookie fingerprint now contended =>
    cases hstep
    exact h.quiet (by simp) (getCurrentSession_quiet _ _ _ _) fun i => (h.download i).append _
  | requireSession i cookie fingerprint now contended serverId =>
    rw [portalStep] at hstep
    split at hstep
    · split_ifs at hstep
      · cases hstep
        refine h.quiet (by simp) (getCurrentSession_quiet _ _ _ _) ?_
        exact DownloadKnown.update h (h.requireSession i cookie fingerprint now contended serverId)
      · cases hstep
        exact h.quiet (by simp) .same (DownloadKnown.update (d := .answered _) h trivial)
    · cases hstep
  | readServer i =>
    rw [portalStep] at hstep
    split at hstep
    · rename_i session serverId hi
      cases hstep
      exact h.quiet (by simp) .same (DownloadKnown.update h (h.readServer hrun hi))
    · cases hstep
  | createSession i token nonce settings =>
    rw [portalStep] at hstep
    split at hstep
    · rename_i session serverId server hi
      cases hstep
      exact h.createSession hi token nonce settings _
    · cases hstep
  | setTokenFingerprint token fingerprint =>
    cases hstep
    exact h.quiet (by simp) (.act (.setTokenFingerprint token fingerprint) rfl) fun i => (h.download i).append _
  | deleteKey key =>
    cases hstep
    exact h.quiet (by simp) (.delete key) fun i => (h.download i).append _
  | changeServers a =>
    cases hstep
    exact h.quiet (by simp) .same fun i => (h.download i).append _
  | tick ms =>
    cases hstep
    exact h.quiet (by simp) (.act (.tick ms) rfl) fun i => (h.download i).append _

theorem start_known (clock : Nat) (servers : ServerTable) :
    Known store decimal (PortalState.start clock servers : PortalState ι) [] (PortalState.start clock servers) where
  web _ := Or.inl rfl
  token _ := Or.inl rfl
  download _ := trivial

/-- A token that resolves was made for a user whom the directory had let in, with that user's name and password, and
goes to a server that this user could see when the request was admitted. -/
theorem resolved_token_granted (store : RedisSessionStore) (decimal : Char → Option Nat) (clock : Nat)
    (servers : ServerTable) (ls : List (PortalAct ι)) (s : PortalState ι)
    (hrun : run (portalStep store decimal) (PortalState.start clock servers) ls = some s) (token : List Char) :
    store.getSession s.redis token = .ok none ∨
      ∃ id q session server d, id.text = token ∧
        Granted store decimal (PortalState.start clock servers) ls id q session server ∧
        store.getSession s.redis token = .ok (some
          { token := token, username := q.username, password := q.password
            targetHost := String.ofList server.address, targetPort := server.port, fingerprint := d
            serverId := some (String.ofList server.id.str)
            serverDisplay := some (String.ofList server.displayName) }) := by
  have hknown : Known store decimal (PortalState.start clock servers) ls s :=
    run_history (I := fun ls s => Known store decimal (PortalState.start clock servers) ls s)
      (start_known clock servers) (fun _ _ _ _ hrun h hstep => step_known hrun h hstep) hrun
  rcases hknown.token token with hnone | ⟨id, nonce, session, server, d, rfl, ⟨q, hgrant⟩, hget⟩
  · exact Or.inl (RedisSessionStore.getSession_of_none hnone)
  · refine Or.inr ⟨id, q, session, server, d, rfl, hgrant, ?_⟩
    obtain ⟨_, _, _, _, _, _, _, _, _, _, _, hauth, _⟩ := hgrant
    obtain ⟨_, _, _, _, _, _, _, _, _, hsession, _⟩ := hauth
    rw [RedisSessionStore.getSession_of_text hget, hsession]
    rfl

end

/-! ### A user without groups and a server for everyone -/

def openServer : RdpServer :=
  ⟨⟨List.replicate 32 (Uuid.lastDigit 7), rfl⟩, "term".toList, "Terminal".toList, "10.0.0.5".toList, 3389, true, 0, []⟩

def openTable : ServerTable where
  rows := [openServer]
  primaryKey := List.nodup_singleton _
  techNames := List.nodup_singleton _
  bindings s hs := by
    rw [List.mem_singleton.mp hs]
    exact List.nodup_nil

def ivanLogin : RedisSessionStore.WebLogin := ⟨"ivan", "qwerty", [], [], "Mozilla/5.0"⟩

def plainSettings : RdpSettings := ⟨[], "rdp.example".toList, "443".toList⟩

def ivanDownload : List (PortalAct Unit) := [.login RedisSessionStore.sampleId RedisSessionStore.sampleNonce ivanLogin 0,
  .requireSession () RedisSessionStore.sampleId.text ivanLogin.browserFingerprint 60 false openServer.techName,
  .readServer (), .createSession () RedisSessionStore.sampleId RedisSessionStore.sampleNonce plainSettings]

theorem ivan_runs : ∃ s : PortalState Unit,
    run (portalStep RedisSessionStore.sampleStore fun _ => none) (PortalState.start 0 openTable) ivanDownload = some s ∧
      RedisSessionStore.sampleStore.getSession s.redis RedisSessionStore.sampleId.text =
        .ok (some (relayed ivanLogin openServer RedisSessionStore.sampleId.text none)) := by
  have hrun := run_download (s := PortalState.start 0 openTable) (i := ()) (q := ivanLogin) (fun _ => none) rfl
    (by decide : RedisSessionStore.sampleId.text ≠ [])
    (by decide : (60 : Int) - 0 ≤ RedisSessionStore.sampleStore.webIdleTtl)
    (List.mem_singleton_self openServer) (by decide) rfl RedisSessionStore.sampleNonce RedisSessionStore.sampleNonce
    RedisSessionStore.sampleId plainSettings
  obtain ⟨s, hrun, _, hget⟩ := hrun
  exact ⟨s, hrun, getSession_of_download hget⟩

theorem ivan_granted : ∃ s : PortalState Unit,
    run (portalStep RedisSessionStore.sampleStore fun _ => none) (PortalState.start 0 openTable) ivanDownload = some s ∧
      ∃ id q session server, id.text = RedisSessionStore.sampleId.text ∧
        Granted RedisSessionStore.sampleStore (fun _ => none) (PortalState.start 0 openTable) ivanDownload id q session
          server := by
  obtain ⟨s, hrun, hresolves⟩ := ivan_runs
  refine ⟨s, hrun, ?_⟩
  rcases resolved_token_granted RedisSessionStore.sampleStore (fun _ => none) 0 openTable ivanDownload s hrun
    RedisSessionStore.sampleId.text with hnone | ⟨id, q, session, server, d, hid, hgrant, _⟩
  · rw [hresolves] at hnone
    cases hnone
  · exact ⟨id, q, session, server, hid, hgrant⟩

end RdpProxy.Portal
