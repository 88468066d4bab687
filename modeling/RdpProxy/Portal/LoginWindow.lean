import RdpProxy.Security.LoginLimiter
import Mathlib.Data.List.Chain

/-!
# The counter of the login limiter and the last minute

The counter of an address starts again after a minute without a failure and after a
successful login. It is compared with the number of failures of the last minute.
-/

open RedisProg Steps

namespace RdpProxy.Portal

open Security

/-! ## The source -/

/-- A password that `login` has had checked. -/
structure Check where
  ip : List Char
  failed : Bool
  deriving DecidableEq

structure LoginPage where
  statusCode : Nat
  error : Option String
  deriving DecidableEq

/-- A request, and what the service finds while it handles it. -/
structure LoginAttempt where
  ip : List Char
  username : List Char
  csrfCookie : List Char
  csrfToken : List Char
  ldapConfigured : Bool
  /-- `ldap.authenticate` returns, and does not raise. -/
  authenticated : Bool

section

variable (lower : List Char → List Char) (maxAttempts lockSeconds : Int)

/-- `login`, up to the web session of a user who has been let in. -/
def login (a : LoginAttempt) : Limited Check LoginPage :=
  if a.csrfCookie = [] ∨ a.csrfCookie ≠ a.csrfToken then
    .reply ⟨400, some "Сессия формы истекла. Обновите страницу и попробуйте снова."⟩
  else
    portalLimiter.isLocked lower a.ip a.username fun isLocked =>
      if isLocked then .reply ⟨429, some "Слишком много попыток входа. Попробуйте позже."⟩
      else if a.ldapConfigured = false then
        .reply ⟨503, some "Система не настроена. Обратитесь к администратору для настройки LDAP."⟩
      else if a.authenticated then .emit ⟨a.ip, false⟩ (portalLimiter.clear lower a.ip a.username (.reply ⟨303, none⟩))
      else
        .emit ⟨a.ip, true⟩ (portalLimiter.recordFailure lower a.ip a.username maxAttempts lockSeconds
          (.reply ⟨401, some "Неверный логин или пароль."⟩))

/-! ## Any logins, one after the other -/

structure Checked where
  ip : List Char
  failed : Bool
  time : Nat
  deriving DecidableEq

structure Logins where
  db : Db (List Char)
  now : Nat
  /-- The checks so far, the latest first. -/
  history : List Checked

def Logins.initial : Logins := ⟨fun _ => none, 0, []⟩

/-- An attempt some milliseconds later. -/
structure LoginAct where
  later : Nat
  attempt : LoginAttempt

def Logins.after (s : Logins) (act : LoginAct) : Logins :=
  let now := s.now + act.later
  let r := (login lower maxAttempts lockSeconds act.attempt).alone now (s.db, [])
  ⟨r.1, now, r.2.map (fun c => ⟨c.ip, c.failed, now⟩) ++ s.history⟩

def Logins.step (s : Logins) (act : LoginAct) : Option Logins := some (s.after lower maxAttempts lockSeconds act)

end

/-- The attempt comes to a password, and the password is wrong. -/
def Logins.Fails (lower : List Char → List Char) (s : Logins) (act : LoginAct) : Prop :=
  act.attempt.csrfCookie ≠ [] ∧ act.attempt.csrfCookie = act.attempt.csrfToken ∧
    LoginLimiter.locked portalLimiter lower act.attempt.ip act.attempt.username (s.now + act.later) s.db = false ∧
    act.attempt.ldapConfigured = true ∧ act.attempt.authenticated = false

/-! ## The last minute -/

def Within (now : Nat) (e : Checked) : Bool := now < e.time + 1000 * FAIL_COUNTER_TTL

def failuresWithin (now : Nat) (ip : List Char) (history : List Checked) : Nat :=
  (history.filter fun e => e.ip = ip ∧ e.failed ∧ Within now e).length

/-- After a failure the address is locked exactly when it has failed too often within a minute. -/
def LocksByWindow (lower : List Char → List Char) (maxAttempts lockSeconds : Int) (s : Logins) (act : LoginAct) :
    Prop :=
  s.Fails lower act →
    ((s.after lower maxAttempts lockSeconds act).db.has (s.now + act.later) (portalLimiter.lockIp ++ act.attempt.ip) = true ↔
      maxAttempts < failuresWithin (s.now + act.later) act.attempt.ip (s.after lower maxAttempts lockSeconds act).history)

/-! ## What parts the failures -/

/-- The checks of one address up to the `n`-th last failure. -/
def upToFailure : Nat → List Checked → List Checked
  | 0, _ => []
  | _ + 1, [] => []
  | n + 1, e :: earlier => if e.failed then e :: upToFailure n earlier else e :: upToFailure (n + 1) earlier

def Recent (n now : Nat) (own : List Checked) : Prop := n ≤ (own.filter fun e => e.failed ∧ Within now e).length

/-- The failures are recent, and a login from the address has succeeded among them. -/
def HiddenBySuccess (n now : Nat) (own : List Checked) : Prop :=
  Recent n now own ∧ ∃ e ∈ upToFailure n own, e.failed = false

/-- The failures reach back more than a minute, with less than a minute from each to the next
and no success among them. -/
def StrungOut (n now : Nat) (own : List Checked) : Prop :=
  ¬ Recent n now own ∧ n ≤ (own.filter fun e => e.failed).length ∧ (∀ e ∈ upToFailure n own, e.failed = true) ∧
    (now :: (upToFailure n own).map Checked.time).IsChain fun later earlier => later < earlier + 1000 * FAIL_COUNTER_TTL

/-- The counter tells the last minute right. -/
def CountsLikeWindow (maxAttempts lockSeconds : Int) (now : Nat) (own : List Checked) : Prop :=
  if 0 < lockSeconds then
    ¬ HiddenBySuccess maxAttempts.toNat now own ∧ ¬ StrungOut maxAttempts.toNat now own
  else ¬ Recent maxAttempts.toNat now own

def ownChecks (ip : List Char) (history : List Checked) : List Checked := history.filter fun e => e.ip = ip

def WindowLike (lower : List Char → List Char) (maxAttempts lockSeconds : Int) (s : Logins) (act : LoginAct) : Prop :=
  s.Fails lower act →
    CountsLikeWindow maxAttempts lockSeconds (s.now + act.later) (ownChecks act.attempt.ip s.history)

/-! ## What the counter holds -/

/-- The failures of one address that the counter holds. -/
def streak (now : Nat) : List Checked → Nat
  | [] => 0
  | e :: earlier => if e.failed ∧ Within now e then streak e.time earlier + 1 else 0

theorem le_streak_iff (n now : Nat) (own : List Checked) : n ≤ streak now own ↔
    n ≤ (own.filter fun e => e.failed).length ∧ (∀ e ∈ upToFailure n own, e.failed = true) ∧
      (now :: (upToFailure n own).map Checked.time).IsChain
        fun later earlier => later < earlier + 1000 * FAIL_COUNTER_TTL := by
  induction own generalizing n now with
  | nil => cases n <;> simp [streak, upToFailure]
  | cons e earlier ih =>
    rcases n with _ | n
    · simp [upToFailure]
    · by_cases hf : e.failed = true
      · by_cases hw : Within now e = true
        · have hlt : now < e.time + 1000 * FAIL_COUNTER_TTL := by simpa [Within] using hw
          simp [streak, upToFailure, hf, hw, ih n e.time, hlt]
        · have hlt : ¬ now < e.time + 1000 * FAIL_COUNTER_TTL := by simpa [Within] using hw
          simp [streak, upToFailure, hf, hw, hlt]
      · simp [streak, upToFailure, hf]

theorem upToFailure_sublist (n : Nat) (own : List Checked) : (upToFailure n own).Sublist own := by
  induction own generalizing n with
  | nil => cases n <;> simp [upToFailure]
  | cons e earlier ih =>
    rcases n with _ | n
    · simp [upToFailure]
    · unfold upToFailure
      split_ifs
      · exact (ih n).cons_cons e
      · exact (ih (n + 1)).cons_cons e

def Ordered (now : Nat) (history : List Checked) : Prop :=
  (∀ e ∈ history, e.time ≤ now) ∧ history.Pairwise fun later earlier => earlier.time ≤ later.time

theorem within_upToFailure {n now : Nat} {own : List Checked}
    (hs : own.Pairwise fun later earlier => earlier.time ≤ later.time) (h : Recent n now own) :
    ∀ e ∈ upToFailure n own, Within now e = true := by
  unfold Recent at h
  induction own generalizing n with
  | nil => cases n <;> simp [upToFailure]
  | cons e earlier ih =>
    rcases n with _ | n
    · simp [upToFailure]
    obtain ⟨he, hs⟩ := List.pairwise_cons.mp hs
    have hw : Within now e = true := by
      obtain ⟨x, hx⟩ := List.exists_mem_of_length_pos (Nat.lt_of_lt_of_le (Nat.succ_pos n) h)
      rw [List.mem_filter] at hx
      simp only [Within, decide_eq_true_eq] at hx ⊢
      rcases List.mem_cons.mp hx.1 with rfl | hmem
      · exact hx.2.2
      · have := he x hmem
        omega
    by_cases hf : e.failed = true
    · simp only [upToFailure, hf, if_true, List.forall_mem_cons]
      rw [List.filter_cons_of_pos (by simp [hf, hw]), List.length_cons] at h
      exact ⟨hw, ih hs (by omega)⟩
    · simp only [upToFailure, hf, if_false, List.forall_mem_cons, Bool.false_eq_true]
      rw [List.filter_cons_of_neg (by simp [hf])] at h
      exact ⟨hw, ih hs h⟩

theorem isChain_of_recent {n now : Nat} {own : List Checked} (ho : Ordered now own) (h : Recent n now own) :
    (now :: (upToFailure n own).map Checked.time).IsChain
      fun later earlier => later < earlier + 1000 * FAIL_COUNTER_TTL := by
  have hmem : ∀ e ∈ upToFailure n own, e ∈ own := (upToFailure_sublist n own).subset
  have hwithin := within_upToFailure ho.2 h
  apply List.Pairwise.isChain
  rw [List.pairwise_cons]
  have hlate : ∀ t ∈ (upToFailure n own).map Checked.time, now < t + 1000 * FAIL_COUNTER_TTL := by
    intro t ht
    obtain ⟨e, he, rfl⟩ := List.mem_map.mp ht
    simpa [Within] using hwithin e he
  refine ⟨hlate, List.Pairwise.imp_of_mem ?_ (List.pairwise_of_forall (R := fun _ _ => True) fun _ _ => trivial)⟩
  intro a b ha hb _
  obtain ⟨e, he, rfl⟩ := List.mem_map.mp ha
  have hle := ho.1 e (hmem e he)
  have hlt := hlate b hb
  omega

theorem countsLikeWindow_iff {maxAttempts lockSeconds : Int} {now : Nat} {own : List Checked} (ho : Ordered now own) :
    (maxAttempts.toNat ≤ streak now own ∧ 0 < lockSeconds ↔ Recent maxAttempts.toNat now own) ↔
      CountsLikeWindow maxAttempts lockSeconds now own := by
  unfold CountsLikeWindow
  split_ifs with hsec
  · rw [le_streak_iff]
    by_cases hr : Recent maxAttempts.toNat now own
    · have hchain := isChain_of_recent ho hr
      have hmany : maxAttempts.toNat ≤ (own.filter fun e => e.failed).length := by
        refine Nat.le_trans hr (List.Sublist.length_le ?_)
        apply List.monotone_filter_right
        intro e he
        simp only [decide_eq_true_eq] at he
        exact he.1
      simp [HiddenBySuccess, StrungOut, hr, hchain, hmany, hsec]
    · simp [HiddenBySuccess, StrungOut, hr, hsec]
  · simp [hsec]

/-! ## The counter through a run -/

section

variable {lower : List Char → List Char} {maxAttempts lockSeconds : Int} {s s' : Logins} {act : LoginAct}

/-- The counter of each address holds what its checks make of it, now and at any later time. -/
structure Counted (s : Logins) : Prop where
  ordered : Ordered s.now s.history
  count : ∀ ip now, s.db.count now (portalLimiter.failIp ++ ip) = streak now (ownChecks ip s.history)

inductive Outcome (lower : List Char → List Char) (maxAttempts lockSeconds : Int) (s : Logins) (act : LoginAct) : Prop where
  | unchecked (fails : ¬ s.Fails lower act) (db : (s.after lower maxAttempts lockSeconds act).db = s.db)
      (history : (s.after lower maxAttempts lockSeconds act).history = s.history)
  | succeeded (fails : ¬ s.Fails lower act)
      (db : (s.after lower maxAttempts lockSeconds act).db = s.db.delete [portalLimiter.failIp ++ act.attempt.ip,
        portalLimiter.failUser ++ uname lower act.attempt.username])
      (history : (s.after lower maxAttempts lockSeconds act).history =
        ⟨act.attempt.ip, false, s.now + act.later⟩ :: s.history)
  | failed (fails : s.Fails lower act)
      (db : ∀ k, k ≠ portalLimiter.lockIp ++ act.attempt.ip →
        k ≠ portalLimiter.lockUser ++ uname lower act.attempt.username →
        (s.after lower maxAttempts lockSeconds act).db k =
          LoginLimiter.counted portalLimiter lower act.attempt.ip act.attempt.username (s.now + act.later) s.db k)
      (locked : (s.after lower maxAttempts lockSeconds act).db.has (s.now + act.later)
          (portalLimiter.lockIp ++ act.attempt.ip) = true ↔
        maxAttempts < s.db.count (s.now + act.later) (portalLimiter.failIp ++ act.attempt.ip) + 1 ∧ 0 < lockSeconds)
      (history : (s.after lower maxAttempts lockSeconds act).history =
        ⟨act.attempt.ip, true, s.now + act.later⟩ :: s.history)

theorem login_alone (lower : List Char → List Char) (maxAttempts lockSeconds : Int) (a : LoginAttempt) (now : Nat)
    (db : Db (List Char)) : (login lower maxAttempts lockSeconds a).alone now (db, []) =
      if a.csrfCookie = [] ∨ a.csrfCookie ≠ a.csrfToken then (db, [])
      else if LoginLimiter.locked portalLimiter lower a.ip a.username now db = true then (db, [])
      else if a.ldapConfigured = false then (db, [])
      else if a.authenticated = true then
        (db.delete [portalLimiter.failIp ++ a.ip, portalLimiter.failUser ++ uname lower a.username], [⟨a.ip, false⟩])
      else
        (portalLimiter.recordFailure lower a.ip a.username maxAttempts lockSeconds
          (.reply (⟨401, some "Неверный логин или пароль."⟩ : LoginPage))).alone now (db, [(⟨a.ip, true⟩ : Check)]) := by
  unfold login
  split
  · rfl
  · rw [LoginLimiter.isLocked_alone]
    split_ifs <;> rfl

theorem after_outcome (lower : List Char → List Char) (maxAttempts lockSeconds : Int) (s : Logins) (act : LoginAct) :
    Outcome lower maxAttempts lockSeconds s act := by
  have hafter : s.after lower maxAttempts lockSeconds act =
      let r := (login lower maxAttempts lockSeconds act.attempt).alone (s.now + act.later) (s.db, [])
      ⟨r.1, s.now + act.later, r.2.map (fun c => ⟨c.ip, c.failed, s.now + act.later⟩) ++ s.history⟩ := rfl
  rw [login_alone] at hafter
  split_ifs at hafter with hcsrf hlock hldap hauth
  · have hnot : ¬ s.Fails lower act := fun hf => hcsrf.elim hf.1 fun h => h hf.2.1
    exact .unchecked hnot (by rw [hafter]) (by rw [hafter]; rfl)
  · have hnot : ¬ s.Fails lower act := fun hf => absurd hlock (by simp [hf.2.2.1])
    exact .unchecked hnot (by rw [hafter]) (by rw [hafter]; rfl)
  · have hnot : ¬ s.Fails lower act := fun hf => absurd hldap (by simp [hf.2.2.2.1])
    exact .unchecked hnot (by rw [hafter]) (by rw [hafter]; rfl)
  · have hnot : ¬ s.Fails lower act := fun hf => absurd hauth (by simp [hf.2.2.2.2])
    exact .succeeded hnot (by rw [hafter]) (by rw [hafter]; rfl)
  · rw [not_or, not_not] at hcsrf
    have hfails : s.Fails lower act := ⟨hcsrf.1, hcsrf.2, by simpa using hlock, by simpa using hldap, by simpa using hauth⟩
    have hopen : s.db.has (s.now + act.later) (portalLimiter.lockIp ++ act.attempt.ip) = false := by
      have hboth := hfails.2.2.1
      unfold LoginLimiter.locked at hboth
      rw [Bool.or_eq_false_iff] at hboth
      exact hboth.1
    obtain ⟨db, hrun, hkeys, hflag⟩ : ∃ db, _ = (db, _) ∧ _ := LoginLimiter.recordFailure_alone
    rw [hrun] at hafter
    refine .failed hfails ?_ ?_ (by rw [hafter]; rfl)
    · rw [hafter]
      exact hkeys
    · rw [hafter]
      simp only
      rw [hflag, hopen]
      simp

theorem count_of_entry {db : Db (List Char)} {k : List Char} {v : Int} {d now : Nat} (h : db k = some ⟨v, some d⟩) :
    db.count now k = if now < d then v else 0 := by
  unfold Db.count Db.live
  rw [h, Option.filter_some]
  by_cases hd : now < d <;> simp [hd]

theorem ownChecks_cons_of_ne {ip : List Char} {e : Checked} {history : List Checked} (h : e.ip ≠ ip) :
    ownChecks ip (e :: history) = ownChecks ip history := List.filter_cons_of_neg (by simpa using h)

theorem ownChecks_cons_self (e : Checked) (history : List Checked) :
    ownChecks e.ip (e :: history) = e :: ownChecks e.ip history := List.filter_cons_of_pos (by simp)

theorem ordered_cons {now later : Nat} {history : List Checked} {e : Checked} (h : Ordered now history)
    (he : e.time = now + later) : Ordered (now + later) (e :: history) := by
  constructor
  · intro x hx
    rcases List.mem_cons.mp hx with rfl | hx
    · omega
    · have := h.1 x hx
      omega
  · refine List.pairwise_cons.mpr ⟨?_, h.2⟩
    intro x hx
    have := h.1 x hx
    omega

theorem step_counted (h : Counted s) (hs : s.step lower maxAttempts lockSeconds act = some s') : Counted s' := by
  cases hs
  have hordered : Ordered (s.now + act.later) s.history :=
    ⟨fun e he => Nat.le_trans (h.ordered.1 e he) (Nat.le_add_right _ _), h.ordered.2⟩
  cases after_outcome lower maxAttempts lockSeconds s act with
  | unchecked fails db history =>
    exact ⟨by rw [history]; exact hordered, by rw [db, history]; exact h.count⟩
  | succeeded fails db history =>
    refine ⟨by rw [history]; exact ordered_cons h.ordered rfl, ?_⟩
    intro ip now
    rw [db, history]
    by_cases hip : act.attempt.ip = ip
    · subst hip
      rw [ownChecks_cons_self ⟨act.attempt.ip, false, s.now + act.later⟩ s.history]
      have hgone : (s.db.delete [portalLimiter.failIp ++ act.attempt.ip,
          portalLimiter.failUser ++ uname lower act.attempt.username]).live now
            (portalLimiter.failIp ++ act.attempt.ip) = none :=
        Db.live_eq_none (Db.delete_of_mem List.mem_cons_self)
      unfold Db.count
      rw [hgone]
      rfl
    · have hkey : portalLimiter.failIp ++ ip ∉ [portalLimiter.failIp ++ act.attempt.ip,
          portalLimiter.failUser ++ uname lower act.attempt.username] := by
        simp only [List.mem_cons, List.append_cancel_left_eq, List.not_mem_nil, or_false, not_or]
        exact ⟨Ne.symm hip, LoginLimiter.failIp_ne_failUser _ _⟩
      rw [Db.count_congr (Db.delete_of_notMem hkey), ownChecks_cons_of_ne hip]
      exact h.count ip now
  | failed fails db locked history =>
    refine ⟨by rw [history]; exact ordered_cons h.ordered rfl, ?_⟩
    intro ip now
    have hentry := db (portalLimiter.failIp ++ ip) (LoginLimiter.failIp_ne_lockIp _ _)
      (LoginLimiter.failIp_ne_lockUser _ _)
    rw [history]
    by_cases hip : act.attempt.ip = ip
    · subst hip
      rw [LoginLimiter.counted_failIp] at hentry
      rw [count_of_entry hentry, h.count, ownChecks_cons_self ⟨act.attempt.ip, true, s.now + act.later⟩ s.history]
      by_cases hlt : now < s.now + act.later + 1000 * FAIL_COUNTER_TTL
      · simp [streak, Within, hlt]
      · simp [streak, Within, hlt]
    · rw [LoginLimiter.counted_of_ne (fun he => hip (List.append_cancel_left he).symm)
        (LoginLimiter.failIp_ne_failUser _ _)] at hentry
      rw [Db.count_congr hentry, ownChecks_cons_of_ne hip]
      exact h.count ip now

theorem failuresWithin_cons (now : Nat) (ip : List Char) (history : List Checked) :
    failuresWithin now ip (⟨ip, true, now⟩ :: history) =
      ((ownChecks ip history).filter fun e => e.failed ∧ Within now e).length + 1 := by
  have hself : (now < now + 1000 * FAIL_COUNTER_TTL) = True := eq_true (by unfold FAIL_COUNTER_TTL; omega)
  unfold failuresWithin ownChecks
  rw [List.filter_cons_of_pos (by simp [Within, hself]), List.length_cons, List.filter_filter]
  congr 3
  funext e
  rw [Bool.and_comm]
  simp

theorem locksByWindow_iff_of_counted (h : Counted s) :
    LocksByWindow lower maxAttempts lockSeconds s act ↔ WindowLike lower maxAttempts lockSeconds s act := by
  unfold LocksByWindow WindowLike
  refine forall_congr' fun hfails => ?_
  have hordered : Ordered (s.now + act.later) (ownChecks act.attempt.ip s.history) :=
    ⟨fun e he => Nat.le_trans (h.ordered.1 e (List.mem_of_mem_filter he)) (Nat.le_add_right _ _),
      h.ordered.2.sublist List.filter_sublist⟩
  rw [← countsLikeWindow_iff hordered]
  cases after_outcome lower maxAttempts lockSeconds s act with
  | unchecked fails db history => exact absurd hfails fails
  | succeeded fails db history => exact absurd hfails fails
  | failed fails db locked history =>
    rw [locked, history, failuresWithin_cons, h.count]
    unfold Recent
    constructor <;> intro hiff <;> constructor <;> intro hlt <;> omega

end

/-- In every run of logins a failure locks its address by the last minute alone exactly where
no success hides failures, and none are strung out over more than that minute. -/
theorem locks_by_window_iff (lower : List Char → List Char) (maxAttempts lockSeconds : Int) (acts : List LoginAct) :
    Along (Logins.step lower maxAttempts lockSeconds) (LocksByWindow lower maxAttempts lockSeconds) .initial acts ↔
      Along (Logins.step lower maxAttempts lockSeconds) (WindowLike lower maxAttempts lockSeconds) .initial acts := by
  obtain ⟨s', hrun⟩ := exists_run (fun s act =>
    (⟨_, rfl⟩ : ∃ s', Logins.step lower maxAttempts lockSeconds s act = some s')) .initial acts
  refine along_congr (I := Counted) ?_ ?_ hrun ?_
  · intro s act s' h hs
    exact step_counted h hs
  · intro s act s' h _
    exact locksByWindow_iff_of_counted h
  · exact ⟨⟨by simp [Logins.initial], List.Pairwise.nil⟩, fun _ _ => rfl⟩

instance (lower : List Char → List Char) (maxAttempts lockSeconds : Int) (s : Logins) (act : LoginAct) :
    Decidable (LocksByWindow lower maxAttempts lockSeconds s act) := by
  unfold LocksByWindow Logins.Fails
  infer_instance

/-- From one address, with a name of its own each time. -/
def attemptFrom (username : String) (authenticated : Bool) (later : Nat) : LoginAct :=
  ⟨later, "198.51.100.7".toList, username.toList, "csrf".toList, "csrf".toList, true, authenticated⟩

/-- The owner of one account hides what is tried on others. -/
def betweenSuccesses : List LoginAct :=
  [attemptFrom "anna" false 0, attemptFrom "boris" false 1000, attemptFrom "eve" true 1000, attemptFrom "vera" false 1000]

def everyFortySeconds : List LoginAct :=
  [attemptFrom "anna" false 0, attemptFrom "boris" false 40000, attemptFrom "vera" false 40000]

theorem window_missed :
    (¬ Along (Logins.step Text.lower 2 120) (LocksByWindow Text.lower 2 120) .initial betweenSuccesses) ∧
      ¬ Along (Logins.step Text.lower 2 120) (LocksByWindow Text.lower 2 120) .initial everyFortySeconds := by
  decide +kernel

end RdpProxy.Portal
