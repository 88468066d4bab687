import RdpProxy.Admin.AdminLogin
import RdpProxy.Lib.Roster

/-!
# Guesses at one admin password, side by side

Any number of `POST /admin/login` requests for one name from one address. The lock stands
after too many failures are counted, and a request asks for it long before it is counted.
-/

open RedisProg Roster Steps

namespace RdpProxy.Admin

open Security

structure Guess where
  password : String
  csrfCookie : String
  csrfToken : String

structure Target where
  verifyPassword : String → String → Bool
  lower : List Char → List Char
  maxAttempts : Int
  lockSeconds : Int
  ip : List Char
  username : String
  user : Option AdminUser

abbrev LoginProg := Limited PasswordCheck (Except HttpError Unit)

namespace Target

variable (t : Target)

def commands (g : Guess) : LoginProg :=
  loginCommands t.verifyPassword t.lower t.maxAttempts t.lockSeconds t.ip t.user
    ⟨t.username, g.password, g.csrfCookie, g.csrfToken⟩

def failIp : List Char := adminLimiter.failIp ++ t.ip

def failUser : List Char := adminLimiter.failUser ++ uname t.lower t.username.toList

def lockIp : List Char := adminLimiter.lockIp ++ t.ip

def lockUser : List Char := adminLimiter.lockUser ++ uname t.lower t.username.toList

/-! ## The run -/

structure Race (ι : Type) where
  clients : Clients ι (List Char) PasswordCheck (Except HttpError Unit)
  /-- A lock has stood for its whole time. -/
  served : Bool

variable {ι : Type}

/-- A lock has run out, and is not set again. -/
def runOut (s : Clients ι (List Char) PasswordCheck (Except HttpError Unit)) : Bool :=
  [t.lockIp, t.lockUser].any fun k => ((s.db k).bind Entry.deadline).any fun d => d ≤ s.now

def Race.step [DecidableEq ι] (w : Race ι) (mv : Move ι) : Option (Race ι) :=
  (w.clients.step mv).map fun s => ⟨s, w.served || t.runOut s⟩

def initial (guesses : ι → Guess) : Race ι := ⟨⟨fun _ => none, 0, fun i => t.commands (guesses i), []⟩, false⟩

/-- How often `verify_password` has found a password wrong. -/
def Race.wrong (w : Race ι) : Nat := w.clients.log.count .wrong

/-- No more wrong passwords than the limit and one have been looked at, unless a lock has
stood in between. -/
def Bounded (w : Race ι) : Prop := w.wrong ≤ (t.maxAttempts + 1).toNat ∨ w.served = true

def failure : LoginProg :=
  adminLimiter.recordFailure t.lower t.ip t.username.toList t.maxAttempts t.lockSeconds
    (.reply (.error ⟨401, "Неверный логин или пароль."⟩))

def counted (w : Race ι) : Int := w.clients.db.count w.clients.now t.failIp

/-! ## What the lock check of a request can know of -/

/-- The command asks for the lock of the address, as each request does first. -/
def asks : LoginProg → Bool
  | .has k _ => k = t.lockIp
  | _ => false

/-- A failure is being recorded. Where Redis refuses the lock it is never recorded to the end. -/
def recording : LoginProg → Bool
  | .incr _ _ | .expire _ _ _ | .setex _ _ _ | .raised => true
  | _ => false

def finds : LoginProg → Nat
  | .emit .wrong _ => 1
  | _ => 0

/-- The failures that a login which succeeds takes out of the counter. -/
def forgets (w : Race ι) : LoginProg → Int
  | .delete _ _ => t.counted w
  | _ => 0

structure Notes (ι : Type) where
  underway : Int
  /-- The failures that were counted and have been taken out of the counter, or have run out. -/
  forgotten : Int
  /-- The failures that were counted when the request asked for the lock. -/
  counted : ι → Int
  /-- The failures that were under way then or forgotten, and those that have been found since. -/
  unseen : ι → Int

def Notes.start : Notes ι := ⟨0, 0, fun _ => 0, fun _ => 0⟩

def note [DecidableEq ι] (w : Race ι) (mv : Move ι) (w' : Race ι) (n : Notes ι) : Notes ι :=
  match mv with
  | .tick _ => { n with forgotten := n.forgotten + (t.counted w - t.counted w') }
  | .go i =>
    let p := w.clients.prog i
    { underway := n.underway + (recording (w'.clients.prog i)).toNat - (recording p).toNat
      forgotten := n.forgotten + t.forgets w p
      counted := fun j => if j = i ∧ t.asks p then t.counted w else n.counted j
      unseen := fun j => if j = i ∧ t.asks p then n.underway + n.forgotten else n.unseen j + finds p }

/-- Before a wrong password is looked at: the request's lock check could know of all the failures
so far, or those that it could not know of are with the counted ones no more than the limit. -/
def Answered (q : Race ι × Notes ι) : Move ι → Prop
  | .go i =>
    match q.1.clients.prog i with
    | .emit .wrong _ =>
      q.1.served = true ∨ q.2.unseen i = 0 ∨ q.2.counted i + q.2.unseen i ≤ t.maxAttempts
    | _ => True
  | .tick _ => True

instance (q : Race ι × Notes ι) (mv : Move ι) : Decidable (t.Answered q mv) := by
  unfold Answered
  cases mv with
  | go i =>
    simp only
    split <;> infer_instance
  | tick d => exact .isTrue trivial

/-! ## Where a request stands -/

def flagUser (u : Int) : LoginProg :=
  LoginLimiter.lockIf u t.maxAttempts t.lockSeconds t.lockUser (.reply (.error ⟨401, "Неверный логин или пароль."⟩))

def flags (n u : Int) : LoginProg :=
  LoginLimiter.lockIf n t.maxAttempts t.lockSeconds t.lockIp (t.flagUser u)

def expiresUser (n u : Int) : LoginProg := .expire t.failUser FAIL_COUNTER_TTL (t.flags n u)

def expires (n u : Int) : LoginProg := .expire t.failIp FAIL_COUNTER_TTL (t.expiresUser n u)

def countsUser (n : Int) : LoginProg := .incr t.failUser (t.expires n)

theorem failure_eq : t.failure = .incr t.failIp t.countsUser := rfl

def cleared : LoginProg := .delete [t.failIp, t.failUser] (.reply (.ok ()))

/-- After the locks have been asked for. -/
def judged (password : String) (isLocked : Bool) : LoginProg :=
  if isLocked then .reply (.error ⟨429, "Слишком много попыток входа. Попробуйте позже."⟩)
  else
    match t.user with
    | none => t.failure
    | some user =>
      if user.isActive = false then t.failure
      else if t.verifyPassword user.passwordHash password = false then .emit .wrong t.failure
      else .emit .right t.cleared

def asking (password : String) : LoginProg :=
  .has t.lockIp fun b => if b then t.judged password true else .has t.lockUser (t.judged password)

inductive Stage : LoginProg → Prop where
  | ended (a : Except HttpError Unit) : Stage (.reply a)
  | raised : Stage .raised
  | asking (password : String) : Stage (t.asking password)
  | askingUser (password : String) : Stage (.has t.lockUser (t.judged password))
  | wrong : Stage (.emit .wrong t.failure)
  | right : Stage (.emit .right t.cleared)
  | clearing : Stage t.cleared
  | counting : Stage t.failure
  | countingUser (n : Int) : Stage (t.countsUser n)
  | expiring (n u : Int) : Stage (t.expires n u)
  | expiringUser (n u : Int) : Stage (t.expiresUser n u)
  | flagging (u : Int) : Stage (.setex t.lockIp t.lockSeconds (t.flagUser u))
  | flaggingUser (a : Except HttpError Unit) : Stage (.setex t.lockUser t.lockSeconds (.reply a))

/-- Whatever Redis answers, the program sets the lock of the address before it ends, or fails to. -/
def Owes : LoginProg → Prop
  | .reply _ => False
  | .raised => True
  | .has _ next => ∀ b, Owes (next b)
  | .incr _ next => ∀ n, Owes (next n)
  | .expire _ _ next => Owes next
  | .setex k _ next => k = t.lockIp ∨ Owes next
  | .delete _ next => Owes next
  | .emit _ next => Owes next

/-- The failure is still to be counted under the address. -/
def uncounted : LoginProg → Bool
  | .incr k _ => k = t.failIp
  | _ => false

/-- The lock of the address has been asked for, and the password not been looked at. -/
def passed : LoginProg → Bool
  | .has k _ => k ≠ t.lockIp
  | .emit .wrong _ => true
  | _ => false

variable {t}

theorem keys_apart (t : Target) : t.failIp ≠ t.failUser ∧ t.failIp ≠ t.lockIp ∧ t.failIp ≠ t.lockUser ∧
    t.failUser ≠ t.lockIp ∧ t.failUser ≠ t.lockUser ∧ t.lockIp ≠ t.lockUser :=
  ⟨LoginLimiter.failIp_ne_failUser _ _, LoginLimiter.failIp_ne_lockIp _ _, LoginLimiter.failIp_ne_lockUser _ _,
    LoginLimiter.failUser_ne_lockIp _ _, LoginLimiter.failUser_ne_lockUser _ _, LoginLimiter.lockIp_ne_lockUser _ _⟩

theorem flagUser_stage (u : Int) : t.Stage (t.flagUser u) := by
  unfold flagUser LoginLimiter.lockIf
  split_ifs
  · exact .flaggingUser _
  · exact .ended _

theorem flags_stage (n u : Int) : t.Stage (t.flags n u) := by
  unfold flags LoginLimiter.lockIf
  split_ifs
  · exact .flagging u
  · exact flagUser_stage u

theorem judged_stage (password : String) (isLocked : Bool) : t.Stage (t.judged password isLocked) := by
  unfold judged
  split_ifs
  · exact .ended _
  · split
    · exact .counting
    · split_ifs
      · exact .counting
      · exact .wrong
      · exact .right

theorem commands_stage (g : Guess) : t.Stage (t.commands g) := by
  unfold commands loginCommands
  split_ifs
  · exact .ended _
  · exact .asking g.password

theorem owes_countsUser {n : Int} (hn : t.maxAttempts < n) : t.Owes (t.countsUser n) := by
  intro u
  show t.Owes (t.flags n u)
  unfold flags LoginLimiter.lockIf
  rw [if_pos hn]
  exact .inl rfl

theorem not_owes_failure : ¬ t.Owes t.failure := by
  intro h
  have hflags : t.Owes (t.flags t.maxAttempts t.maxAttempts) := h t.maxAttempts t.maxAttempts
  unfold flags flagUser LoginLimiter.lockIf at hflags
  simp only [Int.lt_irrefl, if_false] at hflags
  exact hflags

theorem Stage.recording_of_owes {p : LoginProg} (hp : t.Stage p) (h : t.Owes p) : recording p = true := by
  cases hp with
  | ended a => exact h.elim
  | asking password => exact (h true).elim
  | askingUser password => exact (h true).elim
  | wrong => exact absurd h not_owes_failure
  | right => exact h.elim
  | clearing => exact h.elim
  | raised | counting | countingUser n | expiring n u | expiringUser n u | flagging u | flaggingUser a => rfl

theorem owes_next {p p' : LoginProg} {now : Nat} {db db' : Db (List Char)} {es : List PasswordCheck} (h : t.Owes p)
    (hnext : p.next now db = some (db', es, p')) : t.Owes p' ∨ db' t.lockIp ≠ none := by
  cases p with
  | reply a => cases hnext
  | raised => cases hnext
  | has k next =>
    cases hnext
    exact .inl (h _)
  | incr k next =>
    cases hnext
    exact .inl (h _)
  | expire k sec next =>
    cases hnext
    exact .inl h
  | setex k sec next =>
    simp only [Prog.next] at hnext
    split_ifs at hnext <;> cases hnext
    · exact .inl trivial
    · rcases h with rfl | h
      · exact .inr (by simp [Db.setex])
      · exact .inl h
  | delete ks next =>
    cases hnext
    exact .inl h
  | emit e next =>
    cases hnext
    exact .inl h

theorem uncounted_recording {p : LoginProg} (h : t.uncounted p = true) : recording p = true := by
  cases p with
  | incr k next => rfl
  | _ => cases h

theorem not_asks_of_passed {p : LoginProg} (h : t.passed p = true) : t.asks p = false := by
  cases p with
  | has k next => simpa [passed, asks] using h
  | _ => rfl

/-! ## What holds all through a run -/

variable {ι : Type} {w w' : Race ι} {n : Notes ι} {i : ι}

structure Inv (t : Target) (w : Race ι) (n : Notes ι) : Prop where
  nonneg : w.clients.db.Nonneg
  stage : ∀ i, t.Stage (w.clients.prog i)
  served : t.runOut w.clients = true → w.served = true
  /-- A counter above the limit has the lock set, or somebody is about to. -/
  flagged : t.maxAttempts < t.counted w → w.clients.db t.lockIp ≠ none ∨ ∃ i, t.Owes (w.clients.prog i)
  accounts : ∃ m : Nat, Count (fun p => t.uncounted p = true) w.clients.prog m ∧
    (w.wrong : Int) ≤ t.counted w + m + n.forgotten
  underway : ∃ m : Nat, Count (fun p => recording p = true) w.clients.prog m ∧ n.underway = m
  forgotten : 0 ≤ n.forgotten
  unseen : ∀ i, 0 ≤ n.unseen i
  passed : ∀ i, t.passed (w.clients.prog i) = true →
    (w.wrong : Int) ≤ n.counted i + n.unseen i ∧
      (n.unseen i = 0 → n.counted i ≤ t.maxAttempts ∨ w.served = true)

theorem initial_inv (hlimit : 0 ≤ t.maxAttempts) (guesses : ι → Guess) : t.Inv (t.initial guesses) .start := by
  have hquiet : ∀ i, recording (t.commands (guesses i)) = false ∧ t.passed (t.commands (guesses i)) = false := by
    intro i
    unfold commands loginCommands
    split_ifs
    · exact ⟨rfl, rfl⟩
    · exact ⟨rfl, by simp [LoginLimiter.isLocked, passed, lockIp]⟩
  have hzero : t.counted (t.initial guesses) = 0 := rfl
  refine ⟨?_, fun i => commands_stage (guesses i), ?_, ?_, ?_, ?_, Int.le_refl 0, fun _ => Int.le_refl 0, ?_⟩
  · intro k e hk
    cases hk
  · intro h
    cases h
  · intro h
    omega
  · refine ⟨0, count_zero fun i hi => ?_, ?_⟩
    · have hrecording := uncounted_recording hi
      rw [show recording ((t.initial guesses).clients.prog i) = false from (hquiet i).1] at hrecording
      cases hrecording
    · rw [hzero]
      exact Int.le_refl 0
  · refine ⟨0, count_zero fun i hi => ?_, rfl⟩
    rw [show recording ((t.initial guesses).clients.prog i) = false from (hquiet i).1] at hi
    cases hi
  · intro i hi
    rw [show t.passed ((t.initial guesses).clients.prog i) = false from (hquiet i).2] at hi
    cases hi

section

variable [DecidableEq ι]

def Race.went (t : Target) (w : Race ι) (i : ι) (db : Db (List Char)) (es : List PasswordCheck) (p : LoginProg) :
    Race ι :=
  let s : Clients ι (List Char) PasswordCheck (Except HttpError Unit) :=
    { w.clients with db := db, prog := Function.update w.clients.prog i p, log := es ++ w.clients.log }
  ⟨s, w.served || t.runOut s⟩

theorem went_wrong (db : Db (List Char)) (es : List PasswordCheck) (p : LoginProg) :
    (w.went t i db es p).wrong = es.count .wrong + w.wrong := by
  unfold Race.wrong Race.went
  exact List.count_append

theorem went_prog (db : Db (List Char)) (es : List PasswordCheck) (p : LoginProg) (j : ι) :
    (w.went t i db es p).clients.prog j = if j = i then p else w.clients.prog j := Function.update_apply ..

theorem went_counted (db : Db (List Char)) (es : List PasswordCheck) (p : LoginProg) :
    t.counted (w.went t i db es p) = db.count w.clients.now t.failIp := rfl

theorem went_served (db : Db (List Char)) (es : List PasswordCheck) (p : LoginProg)
    (h : t.runOut (w.went t i db es p).clients = true) : (w.went t i db es p).served = true := by
  unfold Race.went at h ⊢
  simp only [h, Bool.or_true]

theorem served_went (db : Db (List Char)) (es : List PasswordCheck) (p : LoginProg) (h : w.served = true) :
    (w.went t i db es p).served = true := by
  unfold Race.went
  simp only [h, Bool.true_or]

omit [DecidableEq ι] in
/-- A lock that is set and does not stand has run out. -/
theorem served_of_not_has (h : t.Inv w n) (hset : w.clients.db t.lockIp ≠ none)
    (hfree : w.clients.db.has w.clients.now t.lockIp = false) : w.served = true := by
  apply h.served
  obtain ⟨e, he⟩ := Option.ne_none_iff_exists'.mp hset
  unfold Db.has Db.live at hfree
  rw [he, Option.filter_some] at hfree
  have hout : e.deadline.all (fun d => decide (w.clients.now < d)) = false := by
    by_contra hlive
    rw [if_pos (by simpa using hlive)] at hfree
    cases hfree
  obtain ⟨d, hd, hpast⟩ := (Option.all_eq_false _ _).mp hout
  unfold runOut
  simp only [List.any_cons, he, hd, Option.bind_some, Option.any_some]
  simp only [decide_eq_false_iff_not, Nat.not_lt] at hpast
  simp [hpast]

omit [DecidableEq ι] in
/-- Where no failure is under way or forgotten, a lock check that finds no lock knows that the
limit has not been passed. -/
theorem check_answers (h : t.Inv w n) (hfree : w.clients.db.has w.clients.now t.lockIp = false) :
    (w.wrong : Int) ≤ t.counted w + (n.underway + n.forgotten) ∧
      (n.underway + n.forgotten = 0 → t.counted w ≤ t.maxAttempts ∨ w.served = true) := by
  obtain ⟨m, hm, haccounts⟩ := h.accounts
  obtain ⟨m', hm', hunderway⟩ := h.underway
  have hle : m ≤ m' := count_le hm hm' fun _ => uncounted_recording
  have hforgotten := h.forgotten
  refine ⟨by omega, fun hnone => ?_⟩
  by_cases hbig : t.maxAttempts < t.counted w
  · rcases h.flagged hbig with hset | ⟨j, howes⟩
    · exact .inr (served_of_not_has h hset hfree)
    · have hpos := count_pos hm' ((h.stage j).recording_of_owes howes)
      omega
  · exact .inl (Int.not_lt.mp hbig)

omit [DecidableEq ι] in
theorem forgets_nonneg (h : t.Inv w n) (q : LoginProg) : 0 ≤ t.forgets w q := by
  unfold forgets
  split
  · exact h.nonneg.count ..
  · exact Int.le_refl 0

theorem inv_went (h : t.Inv w n) {q : LoginProg} (hq : w.clients.prog i = q) {db : Db (List Char)}
    {es : List PasswordCheck} {p : LoginProg} (hnext : q.next w.clients.now w.clients.db = some (db, es, p))
    (hnonneg : db.Nonneg) (hstage : t.Stage p) (hlock : w.clients.db t.lockIp ≠ none → db t.lockIp ≠ none)
    (hbig : t.maxAttempts < db.count w.clients.now t.failIp → t.maxAttempts < t.counted w ∨ t.Owes p)
    (hfinds : es.count .wrong = finds q)
    (haccount : (finds q : Int) + (t.uncounted q).toNat + t.counted w ≤
      db.count w.clients.now t.failIp + (t.uncounted p).toNat + t.forgets w q)
    (hpassed : t.passed p = true → t.passed q = true ∨
      t.asks q = true ∧ finds q = 0 ∧ w.clients.db.has w.clients.now t.lockIp = false) :
    t.Inv (w.went t i db es p) (t.note w (.go i) (w.went t i db es p) n) := by
  subst hq
  have hwrong : (w.went t i db es p).wrong = finds (w.clients.prog i) + w.wrong := by rw [went_wrong, hfinds]
  have hforgets := forgets_nonneg h (w.clients.prog i)
  obtain ⟨m', hm', hunderway⟩ := h.underway
  have hforgotten := h.forgotten
  refine ⟨hnonneg, fun j => ?_, went_served db es p, fun hlt => ?_, ?_, ?_, ?_, fun j => ?_, fun j hj => ?_⟩
  · rw [went_prog]
    split_ifs
    · exact hstage
    · exact h.stage j
  · have hsets : ∀ j, t.Owes (w.clients.prog j) →
        db t.lockIp ≠ none ∨ ∃ j, t.Owes ((w.went t i db es p).clients.prog j) := by
      intro j hj
      by_cases hji : j = i
      · subst hji
        rcases owes_next hj hnext with hp | hset
        · exact .inr ⟨j, by rw [went_prog, if_pos rfl]; exact hp⟩
        · exact .inl hset
      · exact .inr ⟨j, by rw [went_prog, if_neg hji]; exact hj⟩
    rcases hbig hlt with hold | hp
    · rcases h.flagged hold with hset | ⟨j, hj⟩
      · exact .inl (hlock hset)
      · exact hsets j hj
    · exact .inr ⟨i, by rw [went_prog, if_pos rfl]; exact hp⟩
  · obtain ⟨m, hm, haccounts⟩ := h.accounts
    obtain ⟨k, hk, hsum⟩ := count_update hm i p
    refine ⟨k, hk, ?_⟩
    rw [hwrong, went_counted]
    simp only [note]
    omega
  · obtain ⟨k, hk, hsum⟩ := count_update hm' i p
    refine ⟨k, hk, ?_⟩
    simp only [note, went_prog, if_true]
    omega
  · simp only [note]
    omega
  · have := h.unseen j
    simp only [note]
    split_ifs
    · omega
    · omega
  · rw [hwrong]
    have hold : t.passed (w.clients.prog j) = true → ¬ (j = i ∧ t.asks (w.clients.prog i) = true) →
        ((finds (w.clients.prog i) + w.wrong : Nat) : Int) ≤
            (t.note w (.go i) (w.went t i db es p) n).counted j + (t.note w (.go i) (w.went t i db es p) n).unseen j ∧
          ((t.note w (.go i) (w.went t i db es p) n).unseen j = 0 →
            (t.note w (.go i) (w.went t i db es p) n).counted j ≤ t.maxAttempts ∨
              (w.went t i db es p).served = true) := by
      intro hpast hne
      obtain ⟨hle, hzero⟩ := h.passed j hpast
      have := h.unseen j
      simp only [note, if_neg hne]
      refine ⟨by omega, fun hnone => ?_⟩
      exact (hzero (by omega)).imp_right (served_went db es p)
    rw [went_prog] at hj
    split_ifs at hj with hji
    · subst hji
      rcases hpassed hj with hpast | ⟨hasks, hnone, hfree⟩
      · exact hold hpast fun hasks => by
          rw [not_asks_of_passed hpast] at hasks
          cases hasks.2
      · obtain ⟨hle, hzero⟩ := check_answers h hfree
        simp only [note, hasks, and_self, if_true, hnone]
        exact ⟨by omega, fun hz => (hzero hz).imp_right (served_went db es p)⟩
    · exact hold hj fun hasks => hji hasks.1

/-- The commands that leave the counter of the address as it is. -/
theorem inv_quiet (h : t.Inv w n) {q : LoginProg} (hq : w.clients.prog i = q) {db : Db (List Char)}
    {es : List PasswordCheck} {p : LoginProg} (hnext : q.next w.clients.now w.clients.db = some (db, es, p))
    (hnonneg : db.Nonneg) (hstage : t.Stage p) (hlock : w.clients.db t.lockIp ≠ none → db t.lockIp ≠ none)
    (hcount : db.count w.clients.now t.failIp = t.counted w) (hfinds : es.count .wrong = finds q)
    (haccount : finds q + (t.uncounted q).toNat ≤ (t.uncounted p).toNat)
    (hpassed : t.passed p = true → t.passed q = true ∨
      t.asks q = true ∧ finds q = 0 ∧ w.clients.db.has w.clients.now t.lockIp = false) :
    t.Inv (w.went t i db es p) (t.note w (.go i) (w.went t i db es p) n) := by
  refine inv_went h hq hnext hnonneg hstage hlock (fun hlt => .inl (hcount ▸ hlt)) hfinds ?_ hpassed
  have hforgets := forgets_nonneg h q
  rw [hcount]
  omega

theorem inv_tick (hlimit : 0 ≤ t.maxAttempts) (h : t.Inv w n) (d : Nat) {w' : Race ι}
    (hw : w' = ⟨{ w.clients with now := w.clients.now + d },
      w.served || t.runOut { w.clients with now := w.clients.now + d }⟩) :
    t.Inv w' (t.note w (.tick d) w' n) := by
  subst hw
  have hpos : 0 ≤ t.counted w := h.nonneg.count ..
  have hlater : w.clients.db.count (w.clients.now + d) t.failIp = t.counted w ∨
      w.clients.db.count (w.clients.now + d) t.failIp = 0 := Db.count_later (Nat.le_add_right w.clients.now d) t.failIp
  have hforgotten := h.forgotten
  refine ⟨h.nonneg, h.stage, fun hout => by simp only [hout, Bool.or_true], fun hlt => ?_, ?_, h.underway, ?_, h.unseen, ?_⟩
  · have hsame : w.clients.db.count (w.clients.now + d) t.failIp = t.counted w := by
      have hlt' : t.maxAttempts < w.clients.db.count (w.clients.now + d) t.failIp := hlt
      omega
    exact h.flagged (hsame ▸ hlt)
  · obtain ⟨m, hm, haccounts⟩ := h.accounts
    refine ⟨m, hm, ?_⟩
    simp only [note, Race.wrong] at haccounts ⊢
    omega
  · simp only [note]
    have hcount : ∀ s : Bool, t.counted (⟨{ w.clients with now := w.clients.now + d }, s⟩ : Race ι) =
        w.clients.db.count (w.clients.now + d) t.failIp := fun _ => rfl
    rw [hcount]
    omega
  · intro j hj
    obtain ⟨hle, hzero⟩ := h.passed j hj
    refine ⟨hle, fun hz => (hzero hz).imp_right fun hserved => ?_⟩
    simp only [hserved, Bool.true_or]

theorem delete_counts (t : Target) (db : Db (List Char)) (now : Nat) :
    (db.delete [t.failIp, t.failUser]).count now t.failIp = 0 := by
  unfold Db.count
  rw [Db.live_eq_none (Db.delete_of_mem (by simp))]
  rfl

theorem delete_lock (t : Target) (db : Db (List Char)) : db.delete [t.failIp, t.failUser] t.lockIp = db t.lockIp := by
  obtain ⟨_, h₁, _, h₂, _⟩ := keys_apart t
  exact Db.delete_of_notMem (by simp [h₁.symm, h₂.symm])

variable {mv : Move ι}

theorem step_tick {d : Nat} (hs : Race.step t w (.tick d) = some w') :
    w' = ⟨{ w.clients with now := w.clients.now + d }, w.served || t.runOut { w.clients with now := w.clients.now + d }⟩ := by
  cases hs
  rfl

theorem step_go (hs : Race.step t w (.go i) = some w') : ∃ db es p,
    (w.clients.prog i).next w.clients.now w.clients.db = some (db, es, p) ∧ w' = w.went t i db es p := by
  unfold Race.step Clients.step at hs
  simp only at hs
  rcases hn : (w.clients.prog i).next w.clients.now w.clients.db with _ | ⟨db, es, p⟩
  · rw [hn] at hs
    cases hs
  · rw [hn] at hs
    cases hs
    exact ⟨db, es, p, rfl, rfl⟩

theorem passed_askingUser (next : Bool → LoginProg) : t.passed (.has t.lockUser next) = true := by
  simp [passed, (keys_apart t).2.2.2.2.2.symm]

theorem step_inv (hlimit : 0 ≤ t.maxAttempts) (h : t.Inv w n) (hs : Race.step t w mv = some w') :
    t.Inv w' (t.note w mv w' n) := by
  cases mv with
  | tick d => exact inv_tick hlimit h d (step_tick hs)
  | go i =>
    obtain ⟨db, es, p, hnext, rfl⟩ := step_go hs
    obtain ⟨hcounters, hipLock, hipUser, huserLock, _, _⟩ := keys_apart t
    have hstage := h.stage i
    generalize hp : w.clients.prog i = q at hstage hnext
    have hnext' := hnext
    cases hstage with
    | ended a => cases hnext
    | raised => cases hnext
    | asking password =>
      cases hnext'
      refine inv_quiet h hp hnext h.nonneg ?_ id rfl rfl (Nat.zero_le _) fun hpast =>
        .inr ⟨by simp [asks, asking], rfl, ?_⟩
      · simp only
        split_ifs
        · exact judged_stage password true
        · exact .askingUser password
      · simp only at hpast
        split_ifs at hpast with hlocked
        · cases hpast
        · simpa using hlocked
    | askingUser password =>
      cases hnext'
      exact inv_quiet h hp hnext h.nonneg (judged_stage password _) id rfl rfl (Nat.zero_le _) fun _ =>
        .inl (passed_askingUser _)
    | wrong =>
      cases hnext'
      refine inv_quiet h hp hnext h.nonneg .counting id rfl rfl ?_ fun hpast => by cases hpast
      simp [finds, uncounted, failure_eq]
    | right =>
      cases hnext'
      exact inv_quiet h hp hnext h.nonneg .clearing id rfl rfl (Nat.zero_le _) fun hpast => by cases hpast
    | clearing =>
      cases hnext'
      refine inv_went h hp hnext (h.nonneg.delete _) (.ended _) ?_ ?_ rfl ?_ fun hpast => by cases hpast
      · rw [delete_lock]
        exact id
      · rw [delete_counts]
        intro hlt
        omega
      · rw [delete_counts]
        simp [finds, uncounted, cleared, forgets]
    | counting =>
      rw [failure_eq] at hnext'
      cases hnext'
      refine inv_went h hp hnext (h.nonneg.put _ (Int.le_add_one (h.nonneg.count ..))) (.countingUser _) ?_ ?_ rfl ?_
        fun hpast => by cases hpast
      · rw [Db.incr_of_ne hipLock.symm]
        exact id
      · intro hlt
        rw [Db.count_incr] at hlt
        exact .inr (owes_countsUser hlt)
      · rw [Db.count_incr]
        simp [finds, uncounted, failure_eq, countsUser, forgets, counted, hcounters.symm]
        omega
    | countingUser n =>
      cases hnext'
      refine inv_quiet h hp hnext (h.nonneg.put _ (Int.le_add_one (h.nonneg.count ..))) (.expiring _ _) ?_
        (Db.count_congr (Db.incr_of_ne hcounters)) rfl ?_ fun hpast => by cases hpast
      · rw [Db.incr_of_ne huserLock.symm]
        exact id
      · simp [finds, uncounted, countsUser, hcounters.symm]
    | expiring n u =>
      cases hnext'
      refine inv_quiet h hp hnext (h.nonneg.expire _ _ _) (.expiringUser _ _) ?_
        (Db.count_expire _ _ _ _ (by decide)) rfl (Nat.zero_le _) fun hpast => by cases hpast
      rw [Db.expire_of_ne hipLock.symm]
      exact id
    | expiringUser n u =>
      cases hnext'
      refine inv_quiet h hp hnext (h.nonneg.expire _ _ _) (flags_stage n u) ?_
        (Db.count_expire _ _ _ _ (by decide)) rfl (Nat.zero_le _) fun hpast => ?_
      · rw [Db.expire_of_ne huserLock.symm]
        exact id
      · unfold flags flagUser LoginLimiter.lockIf at hpast
        split_ifs at hpast <;> cases hpast
    | flagging u =>
      simp only [Prog.next] at hnext'
      split_ifs at hnext' <;> cases hnext'
      · exact inv_quiet h hp hnext h.nonneg .raised id rfl rfl (Nat.zero_le _) fun hpast => by cases hpast
      · refine inv_quiet h hp hnext (h.nonneg.put _ (by simp)) (flagUser_stage u) (fun _ => by simp [Db.setex])
          (Db.count_congr (Db.setex_of_ne hipLock)) rfl (Nat.zero_le _) fun hpast => ?_
        unfold flagUser LoginLimiter.lockIf at hpast
        split_ifs at hpast <;> cases hpast
    | flaggingUser a =>
      simp only [Prog.next] at hnext'
      split_ifs at hnext' <;> cases hnext'
      · exact inv_quiet h hp hnext h.nonneg .raised id rfl rfl (Nat.zero_le _) fun hpast => by cases hpast
      · refine inv_quiet h hp hnext (h.nonneg.put _ (by simp)) (.ended a) ?_
          (Db.count_congr (Db.setex_of_ne hipUser)) rfl (Nat.zero_le _) fun hpast => by cases hpast
        unfold Db.setex
        rw [Db.put_of_ne _ _ (keys_apart t).2.2.2.2.2]
        exact id

theorem step_bounded (h : t.Inv w n) (hb : t.Bounded w) (hanswered : t.Answered (w, n) mv)
    (hs : Race.step t w mv = some w') : t.Bounded w' := by
  cases mv with
  | tick d =>
    rw [step_tick hs]
    exact hb.imp_right fun hserved => by simp only [hserved, Bool.true_or]
  | go i =>
    obtain ⟨db, es, p, hnext, rfl⟩ := step_go hs
    unfold Bounded
    rw [went_wrong]
    have hstage := h.stage i
    generalize hp : w.clients.prog i = q at hstage hnext
    cases hstage with
    | wrong =>
      cases hnext
      obtain ⟨hle, hzero⟩ := h.passed i (by rw [hp]; rfl)
      unfold Answered at hanswered
      simp only [hp] at hanswered
      have hone : [PasswordCheck.wrong].count .wrong = 1 := rfl
      rcases hanswered with hserved | hnone | hfew
      · exact .inr (served_went _ _ _ hserved)
      · rcases hzero hnone with hcounted | hserved
        · left
          omega
        · exact .inr (served_went _ _ _ hserved)
      · left
        omega
    | ended a => cases hnext
    | raised => cases hnext
    | flagging u | flaggingUser a =>
      simp only [Prog.next] at hnext
      split_ifs at hnext <;> cases hnext <;>
        exact hb.imp (fun hfew => by simpa using hfew) (served_went _ _ _)
    | asking password | askingUser password | right | clearing | counting | countingUser n | expiring n u
      | expiringUser n u =>
      cases hnext
      exact hb.imp (fun hfew => by simpa using hfew) (served_went _ _ _)

/-- No more wrong passwords than the limit and one are looked at in a run where each of these
requests could know of the failures before it, or of so many that the others do not matter. -/
theorem bounded (t : Target) (hlimit : 0 ≤ t.maxAttempts) (guesses : ι → Guess) (mvs : List (Move ι))
    (hall : Along (logged (Race.step t) t.note) t.Answered (t.initial guesses, .start) mvs) :
    Throughout (Race.step t) t.Bounded (t.initial guesses) mvs := by
  refine throughout_of_logged (I := fun w n => t.Inv w n ∧ t.Bounded w) ?_ (fun _ _ h => h.2) hall
    ⟨initial_inv hlimit guesses, Or.inl (Nat.zero_le _)⟩
  rintro w n mv w' ⟨h, hb⟩ hanswered hs
  exact ⟨step_inv hlimit h hs, step_bounded h hb hanswered hs⟩

end

instance (w : Race ι) : Decidable (t.Bounded w) := by
  unfold Bounded
  infer_instance

end Target

/-! ## Three guesses where two are allowed -/

def rootLogin : Target where
  verifyPassword hash password := hash = "hash of " ++ password
  lower := Text.lower
  maxAttempts := 1
  lockSeconds := 120
  ip := "198.51.100.7".toList
  username := "root"
  user := some ⟨"1", "root", "hash of rootrootroot", true, false, []⟩

def rootGuess (n : Nat) : Guess := ⟨"guess" ++ String.ofList (Text.decimal n), "csrf", "csrf"⟩

/-- All three wait for the row of the admin before the first one is counted. -/
def threeAtOnce : List (Move Nat) :=
  [.go 0, .go 0, .go 1, .go 1, .go 2, .go 2] ++ List.replicate 5 (.go 0) ++ List.replicate 7 (.go 1) ++ [.go 2]

theorem one_guess_too_many :
    ∃ w, run (Target.Race.step rootLogin) (rootLogin.initial rootGuess) threeAtOnce = some w ∧
      w.clients.db rootLogin.lockIp ≠ none ∧ ¬ rootLogin.Bounded w := by
  refine ⟨_, rfl, ?_, ?_⟩
  · decide +kernel
  · decide +kernel

/-- Two wrong passwords one after the other set the lock, and the third is not looked at. -/
def threeInTurn : List (Move Nat) := List.replicate 7 (.go 0) ++ List.replicate 9 (.go 1) ++ [.go 2]

/-- The right password stands behind a wrong one, and in front of another. -/
def rightBetween (n : Nat) : Guess := if n = 1 then ⟨"rootrootroot", "csrf", "csrf"⟩ else rootGuess n

def wrongRightWrong : List (Move Nat) :=
  List.replicate 7 (.go 0) ++ List.replicate 4 (.go 1) ++ List.replicate 7 (.go 2)

theorem bounded_in_turn :
    (∃ w, run (Target.Race.step rootLogin) (rootLogin.initial rootGuess) threeInTurn = some w ∧ w.wrong = 2 ∧
      w.clients.db rootLogin.lockIp ≠ none ∧
      Throughout (Target.Race.step rootLogin) rootLogin.Bounded (rootLogin.initial rootGuess) threeInTurn) ∧
    ∃ w, run (Target.Race.step rootLogin) (rootLogin.initial rightBetween) wrongRightWrong = some w ∧ w.wrong = 2 ∧
      Throughout (Target.Race.step rootLogin) rootLogin.Bounded (rootLogin.initial rightBetween) wrongRightWrong := by
  refine ⟨⟨_, rfl, ?_, ?_, ?_⟩, _, rfl, ?_, ?_⟩
  · decide +kernel
  · decide +kernel
  · exact Target.bounded rootLogin (by decide) rootGuess threeInTurn (by decide +kernel)
  · decide +kernel
  · exact Target.bounded rootLogin (by decide) rightBetween wrongRightWrong (by decide +kernel)

end RdpProxy.Admin
