import RdpProxy.Admin.AdminAccess
import RdpProxy.Security.LoginLimiter

/-!
# Admin logins, side by side

`login_submit` asks the limiter first, then waits for the row of the admin, and counts the
failure last. Its commands to Redis are steps between those of other requests.
-/

open RedisProg Steps

namespace RdpProxy.Admin

open Security

/-! ## The source -/

inductive PasswordCheck where
  | right
  | wrong
  deriving DecidableEq

/-- The commands of `login_submit`, up to the session of an admin who has been let in. `user` is
the row that the query finds. -/
def loginCommands (verifyPassword : String → String → Bool) (lower : List Char → List Char)
    (maxAttempts lockSeconds : Int) (ip : List Char) (user : Option AdminUser) (form : LoginForm) :
    Limited PasswordCheck (Except HttpError Unit) :=
  if form.csrfCookie = "" ∨ form.csrfCookie ≠ form.csrfToken then
    .reply (.error ⟨400, "Сессия формы истекла. Обновите страницу."⟩)
  else
    adminLimiter.isLocked lower ip form.username.toList fun isLocked =>
      if isLocked then .reply (.error ⟨429, "Слишком много попыток входа. Попробуйте позже."⟩)
      else
        let failure : Limited PasswordCheck (Except HttpError Unit) :=
          adminLimiter.recordFailure lower ip form.username.toList maxAttempts lockSeconds
            (.reply (.error ⟨401, "Неверный логин или пароль."⟩))
        match user with
        | none => failure
        | some user =>
          if user.isActive = false then failure
          else if verifyPassword user.passwordHash form.password = false then .emit .wrong failure
          else .emit .right (adminLimiter.clear lower ip form.username.toList (.reply (.ok ())))

/-! ## The same answer -/

theorem loginCommands_answer {Addr Net S : Type} [DecidableEq S] (env : AdminEnv Addr Net) (s : AdminState S)
    (form : LoginForm) (sid : S) (fingerprint : String) (time : Int) (lower : List Char → List Char)
    {maxAttempts lockSeconds : Int} (h : 0 < lockSeconds) (ip : List Char) (now : Nat) (db : Db (List Char)) :
    (loginCommands env.verifyPassword lower maxAttempts lockSeconds ip
        (s.users.rows.find? fun u => env.sqlLower u.username = env.lower (strip form.username)) form).answer now db =
      some (loginSubmit env s form (adminLimiter.locked lower ip form.username.toList now db) sid fingerprint time).1 := by
  unfold loginCommands loginSubmit
  split_ifs with hcsrf hlocked
  · rfl
  · rw [LoginLimiter.isLocked_answer, hlocked]
    rfl
  · rw [LoginLimiter.isLocked_answer, eq_false_of_ne_true hlocked]
    simp only [Bool.false_eq_true, if_false]
    rcases hfound : s.users.rows.find? fun u => env.sqlLower u.username = env.lower (strip form.username)
      with _ | user
    · simp only [hfound]
      exact LoginLimiter.recordFailure_answer h
    · simp only [hfound]
      rcases hactive : user.isActive with _ | _
      · simp only [true_or, if_true]
        exact LoginLimiter.recordFailure_answer h
      · rcases hright : env.verifyPassword user.passwordHash form.password with _ | _
        · simp only [or_true, if_true, Bool.true_eq_false, if_false]
          exact LoginLimiter.recordFailure_answer h
        · simp only [or_self, Bool.true_eq_false, if_false]
          rfl

end RdpProxy.Admin
