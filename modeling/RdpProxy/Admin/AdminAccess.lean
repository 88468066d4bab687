import RdpProxy.Admin.AdminTable
import RdpProxy.Lib.Steps
import RdpProxy.Lib.Text
import RdpProxy.Store.Payload

/-!
# Admin sessions and the rows behind them

`require_admin` decides from the payload that `login_submit` wrote to Redis. The rows are
in PostgreSQL, where the pages of the admin users change them.
-/

open Steps

namespace RdpProxy.Admin

open Store

/-! ## The source -/

/-- What the pages take from the configuration and from the libraries. -/
structure AdminEnv (Addr Net : Type) where
  store : SessionStore
  allowedNetworks : List String
  ipAddress : String → Option Addr
  ipNetwork : String → Option Net
  contains : Net → Addr → Bool
  hashPassword : String → String
  verifyPassword : String → String → Bool
  lower : String → String
  sqlLower : String → String

structure HttpError where
  statusCode : Nat
  detail : String
  deriving DecidableEq

variable {Addr Net S : Type}

def ipInNetworks (env : AdminEnv Addr Net) (ipStr : String) (networks : List String) : Bool :=
  match env.ipAddress ipStr with
  | none => false
  | some addr => networks.any fun netStr =>
    match env.ipNetwork netStr with
    | some net => env.contains net addr
    | none => ipStr = netStr

/-- One change to the row of an admin. -/
inductive Change where
  | isActive (b : Bool)
  | allowedIps (ips : List String)
  | mustChangePassword (b : Bool)
  | deleted
  deriving DecidableEq

structure AdminState (S : Type) where
  users : AdminTable
  sessions : S → Option (Payload AdminFields)
  /-- All ids of admin rows so far. An id is a random UUID. -/
  drawn : List String
  /-- What has been done to the row of a session since its login, the latest first. -/
  since : S → List Change

/-- The parts of a request that `require_admin` looks at. -/
structure AdminRequest (S : Type) where
  cookie : Option S
  fingerprint : String
  clientIp : String
  now : Int

section

variable [DecidableEq S]

namespace AdminState

def setSession (s : AdminState S) (sid : S) (p : Option (Payload AdminFields)) : AdminState S :=
  { s with sessions := Function.update s.sessions sid p }

/-- The rows after a change to one of them, which the sessions of that admin have since seen. -/
def setRow (s : AdminState S) (users : AdminTable) (uid : String) (changes : List Change) : AdminState S :=
  { s with
    users := users
    since := fun sid =>
      match s.sessions sid with
      | some p => if p.fields.adminUserId = uid then changes ++ s.since sid else s.since sid
      | none => s.since sid }

def getAdminWebSession (s : AdminState S) (store : SessionStore) (sid : S) (fp : String) (now : Int) :
    Option AdminFields × AdminState S :=
  match s.sessions sid with
  | none => (none, s)
  | some payload =>
    if store.fingerprintMismatch fp payload then (none, s.setSession sid none)
    else if store.idleTooLong now payload then (none, s.setSession sid none)
    else (some payload.fields, s.setSession sid (some (payload.touch now)))

def updateAdminMustChange (s : AdminState S) (sid : S) (mustChange : Bool) : AdminState S :=
  match s.sessions sid with
  | none => s
  | some payload =>
    s.setSession sid (some { payload with fields := { payload.fields with mustChangePassword := mustChange } })

end AdminState

def requireAdmin (env : AdminEnv Addr Net) (s : AdminState S) (r : AdminRequest S) :
    Except HttpError AdminFields × AdminState S :=
  match r.cookie with
  | none => (.error ⟨401, "Not authenticated"⟩, s)
  | some sid =>
    match s.getAdminWebSession env.store sid r.fingerprint r.now with
    | (none, s') => (.error ⟨401, "Session expired"⟩, s')
    | (some sess, s') =>
      if env.allowedNetworks ≠ [] ∧ ipInNetworks env r.clientIp env.allowedNetworks = false then
        (.error ⟨403, "Access denied from this IP"⟩, s')
      else if sess.allowedIps ≠ [] ∧ ipInNetworks env r.clientIp sess.allowedIps = false then
        (.error ⟨403, "Access denied from this IP"⟩, s')
      else (.ok sess, s')

/-! ### The pages of the admin users -/

/-- The routes behind `require_admin`, but for the change of the own password. `userId` is the
UUID of the path, and `none` where it is not one. The bodies have passed their validation. -/
inductive Route where
  | other
  | createAdminUser (uid : String) (username password : String) (isActive : Bool) (allowedIps : List String)
  | updateAdminUser (userId : Option String) (isActive : Option Bool) (allowedIps : Option (List String))
  | resetAdminPassword (userId : Option String) (newPassword : String)
  | deleteAdminUser (userId : Option String)

def strip (s : String) : String := String.ofList (Text.strip s.toList)

def createAdminUser (env : AdminEnv Addr Net) (s : AdminState S) (uid username password : String) (isActive : Bool)
    (allowedIps : List String) : Except HttpError Unit × AdminState S :=
  if s.users.rows.any fun u => env.sqlLower u.username = env.lower (strip username) then
    (.error ⟨409, "Пользователь с таким логином уже есть"⟩, s)
  -- The primary key, which a fresh UUID never meets.
  else if h : uid ∈ s.users.rows.map AdminUser.id then (.error ⟨500, "Internal Server Error"⟩, s)
  else
    let u : AdminUser := ⟨uid, strip username, env.hashPassword password, isActive, false, allowedIps⟩
    (.ok (), { s with users := s.users.insert u h, drawn := uid :: s.drawn })

def updateAdminUser (s : AdminState S) (admin : AdminFields) (userId : Option String) (isActive : Option Bool)
    (allowedIps : Option (List String)) : Except HttpError Unit × AdminState S :=
  match userId with
  | none => (.error ⟨400, "Invalid user id"⟩, s)
  | some uid =>
    match s.users.get uid with
    | none => (.error ⟨404, "Not found"⟩, s)
    | some u =>
      if isActive = some false ∧ u.isActive = true ∧ uid = admin.adminUserId then
        (.error ⟨400, "Нельзя отключить свою учётную запись"⟩, s)
      else if isActive = some false ∧ u.isActive = true ∧ s.users.activeCount ≤ 1 then
        (.error ⟨400, "Нельзя отключить последнего активного администратора"⟩, s)
      else
        let users := s.users.modify uid fun u =>
          ⟨u.passwordHash, isActive.getD u.isActive, u.mustChangePassword, allowedIps.getD u.allowedIps⟩
        (.ok (), s.setRow users uid
          ((isActive.map Change.isActive).toList ++ (allowedIps.map Change.allowedIps).toList))

def resetAdminPassword (env : AdminEnv Addr Net) (s : AdminState S) (userId : Option String) (newPassword : String) :
    Except HttpError Unit × AdminState S :=
  match userId with
  | none => (.error ⟨400, "Invalid user id"⟩, s)
  | some uid =>
    match s.users.get uid with
    | none => (.error ⟨404, "Not found"⟩, s)
    | some _ =>
      let users := s.users.modify uid fun u => ⟨env.hashPassword newPassword, u.isActive, true, u.allowedIps⟩
      (.ok (), s.setRow users uid [.mustChangePassword true])

def deleteAdminUser (s : AdminState S) (admin : AdminFields) (userId : Option String) :
    Except HttpError Unit × AdminState S :=
  match userId with
  | none => (.error ⟨400, "Invalid user id"⟩, s)
  | some uid =>
    if uid = admin.adminUserId then (.error ⟨400, "Нельзя удалить свою учётную запись"⟩, s)
    else
      match s.users.get uid with
      | none => (.error ⟨404, "Not found"⟩, s)
      | some u =>
        if u.isActive = true ∧ s.users.activeCount ≤ 1 then
          (.error ⟨400, "Нельзя удалить последнего активного администратора"⟩, s)
        else (.ok (), s.setRow (s.users.delete uid) uid [.deleted])

def AdminState.handle (env : AdminEnv Addr Net) (s : AdminState S) (admin : AdminFields) :
    Route → Except HttpError Unit × AdminState S
  | .other => (.ok (), s)
  | .createAdminUser uid username password isActive ips => createAdminUser env s uid username password isActive ips
  | .updateAdminUser userId isActive ips => updateAdminUser s admin userId isActive ips
  | .resetAdminPassword userId newPassword => resetAdminPassword env s userId newPassword
  | .deleteAdminUser userId => deleteAdminUser s admin userId

/-! ### Login and the own password -/

structure LoginForm where
  username : String
  password : String
  csrfCookie : String
  csrfToken : String

/-- `login_submit`. `locked` is the answer of the login limiter, and `sid` the session id drawn. -/
def loginSubmit (env : AdminEnv Addr Net) (s : AdminState S) (form : LoginForm) (locked : Bool) (sid : S)
    (fingerprint : String) (now : Int) : Except HttpError Unit × AdminState S :=
  if form.csrfCookie = "" ∨ form.csrfCookie ≠ form.csrfToken then
    (.error ⟨400, "Сессия формы истекла. Обновите страницу."⟩, s)
  else if locked then (.error ⟨429, "Слишком много попыток входа. Попробуйте позже."⟩, s)
  else
    match s.users.rows.find? fun u => env.sqlLower u.username = env.lower (strip form.username) with
    | none => (.error ⟨401, "Неверный логин или пароль."⟩, s)
    | some user =>
      if user.isActive = false ∨ env.verifyPassword user.passwordHash form.password = false then
        (.error ⟨401, "Неверный логин или пароль."⟩, s)
      else
        let payload : Payload AdminFields :=
          ⟨some (env.store.fingerprintDigest fingerprint), some now,
            ⟨user.id, user.username, user.mustChangePassword, user.allowedIps⟩⟩
        (.ok (), { s.setSession sid (some payload) with since := Function.update s.since sid [] })

structure PasswordForm where
  currentPassword : String
  newPassword : String
  newPassword2 : String
  csrfCookie : String
  csrfToken : String

def changePasswordSubmit (env : AdminEnv Addr Net) (s : AdminState S) (sid : S) (admin : AdminFields)
    (form : PasswordForm) : Except HttpError Unit × AdminState S :=
  if form.csrfCookie = "" ∨ form.csrfCookie ≠ form.csrfToken then (.error ⟨400, "Сессия формы истекла."⟩, s)
  else if form.newPassword ≠ form.newPassword2 then (.error ⟨400, "Новые пароли не совпадают."⟩, s)
  else if form.newPassword.length < 8 then (.error ⟨400, "Пароль должен быть не короче 8 символов."⟩, s)
  else
    match s.users.get admin.adminUserId with
    | none => (.error ⟨404, "User not found"⟩, s)
    | some user =>
      if env.verifyPassword user.passwordHash form.currentPassword = false then
        (.error ⟨401, "Неверный текущий пароль."⟩, s)
      else
        let users := s.users.modify admin.adminUserId fun u =>
          ⟨env.hashPassword form.newPassword, u.isActive, false, u.allowedIps⟩
        (.ok (), (s.setRow users admin.adminUserId [.mustChangePassword false]).updateAdminMustChange sid false)

/-! ### Any requests in any order -/

inductive AdminAct (S : Type) where
  | login (sid : S) (form : LoginForm) (locked : Bool) (fingerprint : String) (now : Int)
  | logout (sid : S)
  /-- The TTL of the session key runs out. -/
  | expire (sid : S)
  | request (r : AdminRequest S) (route : Route)
  | changePasswordPage (r : AdminRequest S)
  | changePassword (r : AdminRequest S) (form : PasswordForm)

/-- The UUID that a request draws has not been drawn before. -/
def Route.Fresh (drawn : List String) : Route → Prop
  | .createAdminUser uid _ _ _ _ => uid ∉ drawn
  | _ => True

instance (drawn : List String) (route : Route) : Decidable (route.Fresh drawn) := by
  unfold Route.Fresh
  split <;> infer_instance

def AdminState.step (env : AdminEnv Addr Net) (s : AdminState S) : AdminAct S → Option (AdminState S)
  | .login sid form locked fingerprint now =>
    if s.sessions sid = none then some (loginSubmit env s form locked sid fingerprint now).2 else none
  | .logout sid => some (s.setSession sid none)
  | .expire sid => some (s.setSession sid none)
  | .request r route =>
    if route.Fresh s.drawn then
      match requireAdmin env s r with
      | (.error _, s') => some s'
      | (.ok admin, s') => some (s'.handle env admin route).2
    else none
  | .changePasswordPage r => some (requireAdmin env s r).2
  | .changePassword r form =>
    match r.cookie, requireAdmin env s r with
    | some sid, (.ok admin, s') => some (changePasswordSubmit env s' sid admin form).2
    | _, (_, s') => some s'

/-- Some admins, and no session yet. -/
def AdminState.initial (users : AdminTable) : AdminState S :=
  ⟨users, fun _ => none, users.rows.map AdminUser.id, fun _ => []⟩

end

end RdpProxy.Admin
