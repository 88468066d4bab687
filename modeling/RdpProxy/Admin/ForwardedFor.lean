import RdpProxy.Admin.AdminLogin
import RdpProxy.Lib.IpAddress

/-!
# The address that an admin request is judged by

`get_client_ip` takes the first entry of `X-Forwarded-For` from whoever sends it.
-/

open RedisProg

namespace RdpProxy.Admin

open Security

/-! ## The source -/

structure HttpRequest where
  /-- With the names in lower case. -/
  headers : List (String × String)
  /-- `request.client.host` -/
  client : Option String
  /-- `request.state.client_ip`, which no middleware of the admin service sets. -/
  stateIp : Option String

namespace HttpRequest

variable (r : HttpRequest)

/-- `request.headers.get(name, "")` -/
def header (name : String) : String := ((r.headers.find? fun e => e.1 = name).map Prod.snd).getD ""

/-- `xff.split(",")[0].strip()` -/
def firstEntry (xff : String) : String := strip (String.ofList ((xff.toList.splitOn ',').headD []))

def getClientIp : String :=
  match r.stateIp.filter (· ≠ "") with
  | some ip => ip
  | none =>
    let xff := r.header "x-forwarded-for"
    if xff ≠ "" then firstEntry xff
    else
      match r.client.filter (· ≠ "") with
      | some host => host
      | none => "unknown"

def browserFingerprint : String :=
  "||".intercalate
    [r.header "user-agent", r.header "sec-ch-ua", r.header "sec-ch-ua-platform", r.header "accept-language"]

/-- What `require_admin` takes from the request. `cookies` reads the session id off the header. -/
def toAdmin {S : Type} (cookies : String → Option S) (now : Int) : AdminRequest S :=
  ⟨cookies (r.header "cookie"), r.browserFingerprint, r.getClientIp, now⟩

end HttpRequest

/-! ## Two requests that differ in one header -/

structure SameButForwarded (r r' : HttpRequest) : Prop where
  header : ∀ name, name ≠ "x-forwarded-for" → r.header name = r'.header name
  client : r.client = r'.client
  stateIp : r.stateIp = r'.stateIp

/-- Both are let in or turned away alike, whatever is allowed, and a login counts for the same
address with both. -/
structure JudgedAlike (r r' : HttpRequest) : Prop where
  access : ∀ (Addr Net S : Type) [DecidableEq S] (env : AdminEnv Addr Net) (s : AdminState S)
    (cookies : String → Option S) (now : Int),
    requireAdmin env s (r.toAdmin cookies now) = requireAdmin env s (r'.toAdmin cookies now)
  login : ∀ (verifyPassword : String → String → Bool) (lower : List Char → List Char)
    (maxAttempts lockSeconds : Int) (user : Option AdminUser) (form : LoginForm) (now : Nat) (db : Db (List Char)),
    (loginCommands verifyPassword lower maxAttempts lockSeconds r.getClientIp.toList user form).alone now (db, []) =
      (loginCommands verifyPassword lower maxAttempts lockSeconds r'.getClientIp.toList user form).alone now (db, [])

namespace HttpRequest

/-- The first entry of the header, none where the header is missing or empty. -/
def forwarded (r : HttpRequest) : Option String :=
  if r.header "x-forwarded-for" = "" then none else some (firstEntry (r.header "x-forwarded-for"))

/-- The address of the peer, as the service would have it without the header. -/
def peer (r : HttpRequest) : String := (r.client.filter (· ≠ "")).getD "unknown"

end HttpRequest

/-- Nothing of the header gets through: its first entry is the same, where no header counts
as the address of the peer. -/
def ForwardedAlike (r r' : HttpRequest) : Prop :=
  (∃ ip, r.stateIp = some ip ∧ ip ≠ "") ∨ r.forwarded.getD r.peer = r'.forwarded.getD r.peer

/-! ## The address -/

theorem getClientIp_eq (r : HttpRequest) :
    r.getClientIp = (r.stateIp.filter (· ≠ "")).getD (r.forwarded.getD r.peer) := by
  unfold HttpRequest.getClientIp HttpRequest.forwarded HttpRequest.peer
  rcases r.stateIp.filter (· ≠ "") with _ | ip
  · by_cases hxff : r.header "x-forwarded-for" = ""
    · rcases r.client.filter (· ≠ "") with _ | host <;> simp [hxff]
    · simp [hxff]
  · rfl

/-- A client of the exposed port is judged by whatever address it names. -/
theorem getClientIp_chosen {ip : String} (hne : ip ≠ "") (hcomma : ',' ∉ ip.toList)
    (hspace : ∀ c ∈ ip.toList, Text.isSpace c = false) (client : Option String) :
    HttpRequest.getClientIp ⟨[("x-forwarded-for", ip)], client, none⟩ = ip := by
  have hsplit : ip.toList.splitOn ',' = [ip.toList] := List.splitOn_eq_singleton hcomma
  have hfirst : HttpRequest.firstEntry ip = ip := by
    unfold HttpRequest.firstEntry strip
    simp [hsplit, Text.strip_eq_self hspace]
  rw [getClientIp_eq]
  simp [HttpRequest.forwarded, HttpRequest.header, hne, hfirst]

/-- A login with no admin of that name, where nothing has been counted before. -/
def loginUnknown (ip : List Char) : Db (List Char) × List PasswordCheck :=
  (loginCommands (fun _ _ => false) id 0 1 ip none ⟨"", "", "c", "c"⟩).alone 0 (fun _ => none, [])

theorem loginUnknown_counts (ip : List Char) :
    (loginUnknown ip).1 (adminLimiter.failIp ++ ip) ≠ none ∧
      ∀ ip', ip' ≠ ip → (loginUnknown ip).1 (adminLimiter.failIp ++ ip') = none := by
  obtain ⟨db', hlogin, hkeys, _⟩ : ∃ db', loginUnknown ip = (db', []) ∧ _ ∧ _ :=
    LoginLimiter.recordFailure_alone
  rw [hlogin]
  dsimp only
  constructor
  · rw [hkeys _ (LoginLimiter.failIp_ne_lockIp _ _) (LoginLimiter.failIp_ne_lockUser _ _), LoginLimiter.counted_failIp]
    simp
  · intro ip' hne
    rw [hkeys _ (LoginLimiter.failIp_ne_lockIp _ _) (LoginLimiter.failIp_ne_lockUser _ _),
      LoginLimiter.counted_of_ne (fun he => hne (List.append_cancel_left he)) (LoginLimiter.failIp_ne_failUser _ _)]

theorem loginUnknown_injective {ip ip' : List Char} (h : loginUnknown ip = loginUnknown ip') : ip = ip' := by
  by_contra hne
  have hnone := (loginUnknown_counts ip').2 ip hne
  rw [← h] at hnone
  exact (loginUnknown_counts ip).1 hnone

theorem fingerprint_alike {r r' : HttpRequest} (h : SameButForwarded r r') :
    r.browserFingerprint = r'.browserFingerprint := by
  unfold HttpRequest.browserFingerprint
  rw [h.header "user-agent" (by decide), h.header "sec-ch-ua" (by decide), h.header "sec-ch-ua-platform" (by decide),
    h.header "accept-language" (by decide)]

theorem getClientIp_alike {r r' : HttpRequest} (h : SameButForwarded r r') :
    r.getClientIp = r'.getClientIp ↔ ForwardedAlike r r' := by
  have hpeer : r'.peer = r.peer := by
    unfold HttpRequest.peer
    rw [h.client]
  rw [getClientIp_eq, getClientIp_eq, ← h.stateIp, hpeer]
  unfold ForwardedAlike
  rcases hstate : r.stateIp.filter (· ≠ "") with _ | ip
  · have hnone : ¬ ∃ ip, r.stateIp = some ip ∧ ip ≠ "" := by
      rintro ⟨ip, hip, hne⟩
      rw [hip] at hstate
      simp [hne] at hstate
    simp [hnone]
  · have hsome : ∃ ip, r.stateIp = some ip ∧ ip ≠ "" := by
      obtain ⟨hip, hne⟩ := Option.filter_eq_some_iff.mp hstate
      exact ⟨ip, hip, by simpa using hne⟩
    simp [hsome]

theorem judgedAlike_iff {r r' : HttpRequest} (h : SameButForwarded r r') :
    JudgedAlike r r' ↔ ForwardedAlike r r' := by
  rw [← getClientIp_alike h]
  constructor
  · intro halike
    exact String.toList_injective (loginUnknown_injective (halike.login _ _ _ _ _ _ _ _))
  · intro hip
    constructor
    · intro Addr Net S _ env s cookies now
      unfold HttpRequest.toAdmin
      rw [hip, fingerprint_alike h, h.header "cookie" (by decide)]
    · intro verifyPassword lower maxAttempts lockSeconds user form now db
      rw [hip]

/-! ## The first entry decides -/

def naming (xff : String) : HttpRequest := ⟨[("x-forwarded-for", xff)], some "203.0.113.5", none⟩

theorem longer_chain_alike : JudgedAlike (naming "10.0.0.1, 192.0.2.1") (naming "10.0.0.1") := by
  have hfirst : HttpRequest.firstEntry "10.0.0.1, 192.0.2.1" = HttpRequest.firstEntry "10.0.0.1" := by decide +kernel
  have hsame : SameButForwarded (naming "10.0.0.1, 192.0.2.1") (naming "10.0.0.1") := by
    refine ⟨?_, rfl, rfl⟩
    intro name hname
    simp [HttpRequest.header, naming, hname.symm]
  refine (judgedAlike_iff hsame).mpr (Or.inr ?_)
  simp [HttpRequest.forwarded, HttpRequest.header, naming, hfirst]

/-- The pages are for one network, and the session is that of an admin from anywhere. -/
def office : AdminEnv IpAddress IpAddress.Network where
  store := ⟨3600, fun _ => ⟨"9f86d081884c7d659a2feaa0c55ad015a3bf4f1b2b0b822cd15d6c15b0f00a08", by decide⟩⟩
  allowedNetworks := ["10.0.0.0/8"]
  ipAddress s := IpAddress.ipAddress s.toList
  ipNetwork s := IpAddress.ipNetwork s.toList
  contains := IpAddress.Network.contains
  hashPassword := id
  verifyPassword := (· = ·)
  lower := id
  sqlLower := id

def rootFields : Store.AdminFields := ⟨"1", "root", false, []⟩

def signedIn : AdminState Unit := ⟨⟨[], List.nodup_nil⟩, fun _ => some ⟨none, none, rootFields⟩, [], fun _ => []⟩

def outside : HttpRequest := ⟨[], some "203.0.113.5", none⟩

theorem outsider_let_in : SameButForwarded outside (naming "10.1.2.3") ∧
    (requireAdmin office signedIn (outside.toAdmin (fun _ => some ()) 0)).1 =
      .error ⟨403, "Access denied from this IP"⟩ ∧
    (requireAdmin office signedIn ((naming "10.1.2.3").toAdmin (fun _ => some ()) 0)).1 = .ok rootFields ∧
    ¬ JudgedAlike outside (naming "10.1.2.3") := by
  have hturned : (requireAdmin office signedIn (outside.toAdmin (fun _ => some ()) 0)).1 =
      .error ⟨403, "Access denied from this IP"⟩ := by decide +kernel
  have hlet : (requireAdmin office signedIn ((naming "10.1.2.3").toAdmin (fun _ => some ()) 0)).1 = .ok rootFields := by
    decide +kernel
  refine ⟨⟨?_, rfl, rfl⟩, hturned, hlet, ?_⟩
  · intro name hname
    simp [HttpRequest.header, outside, naming, hname.symm]
  · intro halike
    have hsame := congrArg Prod.fst (halike.access _ _ _ office signedIn (fun _ => some ()) 0)
    rw [hturned, hlet] at hsame
    cases hsame

end RdpProxy.Admin
