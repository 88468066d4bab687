import RdpProxy.Admin.RequestUrl
import RdpProxy.Admin.SessionRow

/-!
# The audit log (`middleware/audit.py`)

The middleware writes its row behind the answer, with the method and the path of `request.url` in a
column of 64 characters, and passes over whatever goes wrong.
-/

namespace RdpProxy.Admin

open Store

/-! ## The source -/

/-- The routes under `/api/admin/` that are not read with `GET`. -/
inductive ApiRoute where
  | createServer
  | reorderServers
  | updateServer (serverId : String)
  | deleteServer (serverId : String)
  | cloneServer (serverId : String)
  | setVisibility (serverId : String)
  | createTemplate
  | updateTemplate (templateId : String)
  | deleteTemplate (templateId : String)
  | updateSettings
  | ldapCheck
  | ldapTest
  | killAll
  | killSession (connectionId : String)
  | createAdminUser
  | updateAdminUser (userId : String)
  | resetAdminPassword (userId : String)
  | deleteAdminUser (userId : String)
  | refreshAdGroups
  | restart

namespace ApiRoute

def method : ApiRoute → String
  | createServer | cloneServer _ | createTemplate | ldapCheck | ldapTest | killAll | killSession _ | createAdminUser
  | resetAdminPassword _ | refreshAdGroups | restart => "POST"
  | reorderServers | updateServer _ | updateTemplate _ | updateSettings | updateAdminUser _ => "PUT"
  | setVisibility _ => "PATCH"
  | deleteServer _ | deleteTemplate _ | deleteAdminUser _ => "DELETE"

/-- The path of the scope that is routed here. -/
def path : ApiRoute → String
  | createServer => "/api/admin/servers"
  | reorderServers => "/api/admin/servers/reorder"
  | updateServer serverId | deleteServer serverId => "/api/admin/servers/" ++ serverId
  | cloneServer serverId => "/api/admin/servers/" ++ serverId ++ "/clone"
  | setVisibility serverId => "/api/admin/servers/" ++ serverId ++ "/visibility"
  | createTemplate => "/api/admin/templates"
  | updateTemplate templateId | deleteTemplate templateId => "/api/admin/templates/" ++ templateId
  | updateSettings => "/api/admin/settings"
  | ldapCheck => "/api/admin/settings/ldap-check"
  | ldapTest => "/api/admin/settings/ldap-test"
  | killAll => "/api/admin/sessions/kill-all"
  | killSession connectionId => "/api/admin/sessions/" ++ connectionId ++ "/kill"
  | createAdminUser => "/api/admin/admin-users"
  | updateAdminUser userId | deleteAdminUser userId => "/api/admin/admin-users/" ++ userId
  | resetAdminPassword userId => "/api/admin/admin-users/" ++ userId ++ "/reset-password"
  | refreshAdGroups => "/api/admin/ad-groups/refresh"
  | restart => "/api/admin/services/restart"

def action (route : ApiRoute) : String := route.method ++ " " ++ route.path

end ApiRoute

structure AdminAuditLog where
  instanceId : String
  adminUser : String
  action : String
  targetType : String
  targetId : String
  clientIp : String
  /-- The `status_code` of `new_value`. -/
  newValue : Nat
  deriving DecidableEq

/-- `VARCHAR(n)` takes no text that is longer, and PostgreSQL takes none with a NUL. -/
def InVarchar (n : Nat) (s : String) : Prop := s.length ≤ n ∧ '\x00' ∉ s.toList

instance (n : Nat) (s : String) : Decidable (InVarchar n s) := inferInstanceAs (Decidable (_ ∧ _))

def AdminAuditLog.Insertable (row : AdminAuditLog) : Prop :=
  InVarchar 64 row.instanceId ∧ InVarchar 128 row.adminUser ∧ InVarchar 64 row.action ∧ InVarchar 64 row.targetType ∧
    InVarchar 128 row.targetId ∧ InVarchar 45 row.clientIp

instance (row : AdminAuditLog) : Decidable row.Insertable := inferInstanceAs (Decidable (_ ∧ _))

/-- What of `app.state` the middleware looks at. -/
structure AuditApp where
  dbSessionmaker : Bool
  sessionStore : Option SessionStore
  /-- `config.instance.id` -/
  instanceId : Option String

structure AuditState (S : Type) where
  admin : AdminState S
  /-- The rows of `admin_audit_log` that are committed. -/
  rows : List AdminAuditLog

/-- What the middleware meets when the answer is there. -/
structure Moment where
  now : Int
  redisUp : Bool
  dbUp : Bool

variable {Addr Net S : Type} [DecidableEq S]

/-- `get_admin_session_optional`, and none where Redis cannot be read. -/
def AuditApp.getAdminSessionOptional (app : AuditApp) (redisUp : Bool) (s : AdminState S) (r : AdminRequest S) :
    Option (Option AdminFields × AdminState S) :=
  match app.sessionStore with
  | none => some (none, s)
  | some store =>
    match r.cookie with
    | none => some (none, s)
    | some sid => if redisUp then some (s.getAdminWebSession store sid r.fingerprint r.now) else none

def auditRow (app : AuditApp) (http : HttpRequest) (method path adminUser : String) (statusCode : Nat) :
    AdminAuditLog where
  instanceId := app.instanceId.getD "node-1"
  adminUser := adminUser
  action := method ++ " " ++ path
  targetType := "api"
  targetId := path
  clientIp := http.getClientIp
  newValue := statusCode

/-- `AuditMiddleware.dispatch` behind `call_next`. What raises in the `try` is logged, and the answer goes out. -/
def AuditApp.dispatch (app : AuditApp) (bracketed : List Char → Bool) (cookies : String → Option S) (s : AuditState S)
    (r : ApiRequest) (statusCode : Nat) (m : Moment) : AuditState S :=
  match r.urlPath bracketed with
  | none => s
  | some path =>
    if ¬ "/api/admin/".toList <+: path.toList then s
    else if r.method ∉ ["POST", "PUT", "PATCH", "DELETE"] then s
    else if app.dbSessionmaker = false then s
    else
      match app.getAdminSessionOptional m.redisUp s.admin (r.toAdmin cookies m.now) with
      | none => s
      | some (adminSess, admin) =>
        let adminUser := (adminSess.map AdminFields.username).getD "unknown"
        let row := auditRow app r.toHttpRequest r.method path adminUser statusCode
        if m.dbUp = true ∧ row.Insertable then ⟨admin, s.rows ++ [row]⟩ else ⟨admin, s.rows⟩

/-! ## What the row needs -/

/-- The admin of the session, where the middleware still finds it. -/
def AuditApp.readableAdmin (app : AuditApp) (s : AdminState S) (r : AdminRequest S) : Option AdminFields := do
  let store ← app.sessionStore
  let sid ← r.cookie
  let payload ← s.sessions sid
  if store.Admits r.fingerprint r.now payload then some payload.fields else none

/-- The name that goes into the row. -/
def AuditApp.adminName (app : AuditApp) (s : AdminState S) (r : AdminRequest S) : String :=
  ((app.readableAdmin s r).map AdminFields.username).getD "unknown"

section

variable (app : AuditApp) {bracketed : List Char → Bool} (cookies : String → Option S) (s : AuditState S)
  {r : ApiRequest} {route : ApiRoute} (statusCode : Nat) {m : Moment} {path : String}

variable (r route)

end

/-! ## Which routes lose their row -/

/-- The routes whose path has an id in it. -/
def ApiRoute.withId (id : String) : List ApiRoute :=
  [.updateServer id, .deleteServer id, .cloneServer id, .setVisibility id, .updateTemplate id, .deleteTemplate id,
    .killSession id, .updateAdminUser id, .resetAdminPassword id, .deleteAdminUser id]

/-- With a UUID these are too long for their column, whoever sends them. -/
theorem too_long_with_uuid {id : String} (h : id.length = 36) :
    ((ApiRoute.withId id).filter fun route => 64 < route.action.length) =
      [.cloneServer id, .setVisibility id, .killSession id, .resetAdminPassword id, .deleteAdminUser id] := by
  have hspace : " ".length = 1 := by decide
  have hplain : ∀ (method base : String) {n : Nat}, method.length + base.length + 37 = n →
      (method ++ " " ++ (base ++ id)).length = n := by
    intro method base n hn
    rw [String.length_append, String.length_append, String.length_append, h, hspace]
    omega
  have hending : ∀ (method base ending : String) {n : Nat}, method.length + base.length + ending.length + 37 = n →
      (method ++ " " ++ (base ++ id ++ ending)).length = n := by
    intro method base ending n hn
    rw [String.length_append, String.length_append, String.length_append, String.length_append, h, hspace]
    omega
  have h₁ : (ApiRoute.updateServer id).action.length = 59 := hplain "PUT" "/api/admin/servers/" (by decide)
  have h₂ : (ApiRoute.deleteServer id).action.length = 62 := hplain "DELETE" "/api/admin/servers/" (by decide)
  have h₃ : (ApiRoute.cloneServer id).action.length = 66 := hending "POST" "/api/admin/servers/" "/clone" (by decide)
  have h₄ : (ApiRoute.setVisibility id).action.length = 72 :=
    hending "PATCH" "/api/admin/servers/" "/visibility" (by decide)
  have h₅ : (ApiRoute.updateTemplate id).action.length = 61 := hplain "PUT" "/api/admin/templates/" (by decide)
  have h₆ : (ApiRoute.deleteTemplate id).action.length = 64 := hplain "DELETE" "/api/admin/templates/" (by decide)
  have h₇ : (ApiRoute.killSession id).action.length = 66 := hending "POST" "/api/admin/sessions/" "/kill" (by decide)
  have h₈ : (ApiRoute.updateAdminUser id).action.length = 63 := hplain "PUT" "/api/admin/admin-users/" (by decide)
  have h₉ : (ApiRoute.resetAdminPassword id).action.length = 79 :=
    hending "POST" "/api/admin/admin-users/" "/reset-password" (by decide)
  have h₁₀ : (ApiRoute.deleteAdminUser id).action.length = 66 := hplain "DELETE" "/api/admin/admin-users/" (by decide)
  simp only [ApiRoute.withId, List.filter_cons, List.filter_nil]
  simp [h₁, h₂, h₃, h₄, h₅, h₆, h₇, h₈, h₉, h₁₀]

theorem getAdminWebSession_some {s s' : AdminState S} {store : SessionStore} {sid : S} {fp : String} {now : Int}
    {sess : AdminFields} (h : s.getAdminWebSession store sid fp now = (some sess, s')) :
    ∃ p, s.sessions sid = some p ∧ store.Admits fp now p ∧ p.fields = sess ∧
      s' = s.setSession sid (some (p.touch now)) := by
  unfold AdminState.getAdminWebSession at h
  rcases hp : s.sessions sid with _ | p
  · rw [hp] at h
    cases h
  · simp only [hp] at h
    have hadmits := admits_iff store fp now p
    split_ifs at h with hmismatch hidle
    · cases h
    · cases h
    · cases h
      exact ⟨p, rfl, hadmits.mpr (not_or.mpr ⟨hmismatch, hidle⟩), rfl, rfl⟩

theorem requireAdmin_ok {env : AdminEnv Addr Net} {s s' : AdminState S} {r : AdminRequest S} {admin : AdminFields}
    (h : requireAdmin env s r = (.ok admin, s')) :
    ∃ sid, r.cookie = some sid ∧ s.getAdminWebSession env.store sid r.fingerprint r.now = (some admin, s') := by
  unfold requireAdmin at h
  rcases hcookie : r.cookie with _ | sid
  · rw [hcookie] at h
    cases h
  · rw [hcookie] at h
    rcases hget : s.getAdminWebSession env.store sid r.fingerprint r.now with ⟨_ | sess, s₁⟩
    · simp only [hget] at h
      cases h
    · simp only [hget] at h
      split_ifs at h
      · cases h
      · cases h
      · cases h
        exact ⟨sid, rfl, hget⟩

theorem known_of_kept {env : AdminEnv Addr Net} {app : AuditApp} {s₀ s₁ s : AdminState S} {cookies : String → Option S}
    {http : HttpRequest} {t₀ now : Int} {admin : AdminFields} (hstore : app.sessionStore = some env.store)
    (hletIn : requireAdmin env s₀ (http.toAdmin cookies t₀) = (.ok admin, s₁)) (hkept : s.sessions = s₁.sessions)
    (hidle : now - t₀ ≤ env.store.webIdleTtl) : app.adminName s (http.toAdmin cookies now) = admin.username := by
  obtain ⟨sid, hcookie, hget⟩ := requireAdmin_ok hletIn
  obtain ⟨p, _, hadmits, hfields, hs₁⟩ := getAdminWebSession_some hget
  have hcookie' : (http.toAdmin cookies now).cookie = some sid := hcookie
  have hnow : s.sessions sid = some (p.touch t₀) := by
    rw [hkept, hs₁]
    exact Function.update_self ..
  have hstill : env.store.Admits http.browserFingerprint now (p.touch t₀) := ⟨hadmits.1, hidle⟩
  have hread : app.readableAdmin s (http.toAdmin cookies now) = some admin := by
    unfold AuditApp.readableAdmin
    rw [hstore, hcookie']
    simp only [Option.bind_eq_bind, Option.bind_some, hnow]
    rw [← hfields]
    exact if_pos hstill
  rw [AuditApp.adminName, hread]
  rfl

/-! ## A kill that leaves no row -/

end RdpProxy.Admin
