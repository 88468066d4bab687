import RdpProxy.Lib.RedisProg
import RdpProxy.Lib.Text

/-!
# The login limiter (`security/login_limiter.py`)

Failed logins are counted per address and per name. A counter lives for a minute after its
last failure, and a successful login deletes it.
-/

open RedisProg Text

namespace RdpProxy.Security

/-! ## The source -/

def FAIL_COUNTER_TTL : Nat := 60

/-- The patterns without their last part, the address or the name. None of them begins another. -/
structure LoginLimiter where
  failIp : List Char
  failUser : List Char
  lockIp : List Char
  lockUser : List Char
  apart : [failIp, failUser, lockIp, lockUser].Pairwise fun p q => ¬ p <+: q ∧ ¬ q <+: p

def portalLimiter : LoginLimiter where
  failIp := "rdp:fail:ip:".toList
  failUser := "rdp:fail:user:".toList
  lockIp := "rdp:lock:ip:".toList
  lockUser := "rdp:lock:user:".toList
  apart := by decide

def adminLimiter : LoginLimiter where
  failIp := "rdp:admin:fail:ip:".toList
  failUser := "rdp:admin:fail:user:".toList
  lockIp := "rdp:admin:lock:ip:".toList
  lockUser := "rdp:admin:lock:user:".toList
  apart := by decide

abbrev Limited (E A : Type) := Prog (List Char) E A

variable {E A : Type}

/-- `username.strip().lower() or "_"`, with the `lower` of the text. -/
def uname (lower : List Char → List Char) (username : List Char) : List Char :=
  if lower (strip username) = [] then ['_'] else lower (strip username)

namespace LoginLimiter

variable (limiter : LoginLimiter) (lower : List Char → List Char) (ip username : List Char)

def isLocked (next : Bool → Limited E A) : Limited E A :=
  .has (limiter.lockIp ++ ip) fun ipLocked =>
    if ipLocked then next true else .has (limiter.lockUser ++ uname lower username) next

/-- `if cnt > max_attempts: self._rc.setex(key, lock_seconds, "1")` -/
def lockIf (cnt maxAttempts lockSeconds : Int) (key : List Char) (next : Limited E A) : Limited E A :=
  if maxAttempts < cnt then .setex key lockSeconds next else next

def recordFailure (maxAttempts lockSeconds : Int) (next : Limited E A) : Limited E A :=
  let ipKey := limiter.failIp ++ ip
  let userKey := limiter.failUser ++ uname lower username
  .incr ipKey fun ipCnt => .incr userKey fun userCnt =>
    .expire ipKey FAIL_COUNTER_TTL <| .expire userKey FAIL_COUNTER_TTL <|
      lockIf ipCnt maxAttempts lockSeconds (limiter.lockIp ++ ip) <|
        lockIf userCnt maxAttempts lockSeconds (limiter.lockUser ++ uname lower username) next

def clear (next : Limited E A) : Limited E A :=
  .delete [limiter.failIp ++ ip, limiter.failUser ++ uname lower username] next

/-! ## The keys -/

theorem ne_of_apart {p q : List Char} (h : ¬ p <+: q ∧ ¬ q <+: p) (x y : List Char) : p ++ x ≠ q ++ y := by
  intro he
  rcases List.prefix_or_prefix_of_prefix (List.prefix_append p x) (he ▸ List.prefix_append q y) with hpq | hqp
  · exact h.1 hpq
  · exact h.2 hqp

variable {limiter lower ip username}

theorem patterns_apart : (¬ limiter.failIp <+: limiter.failUser ∧ ¬ limiter.failUser <+: limiter.failIp) ∧
    (¬ limiter.failIp <+: limiter.lockIp ∧ ¬ limiter.lockIp <+: limiter.failIp) ∧
    (¬ limiter.failIp <+: limiter.lockUser ∧ ¬ limiter.lockUser <+: limiter.failIp) ∧
    (¬ limiter.failUser <+: limiter.lockIp ∧ ¬ limiter.lockIp <+: limiter.failUser) ∧
    (¬ limiter.failUser <+: limiter.lockUser ∧ ¬ limiter.lockUser <+: limiter.failUser) ∧
    (¬ limiter.lockIp <+: limiter.lockUser ∧ ¬ limiter.lockUser <+: limiter.lockIp) := by
  have h := limiter.apart
  simp only [List.pairwise_cons, List.mem_cons, List.not_mem_nil, or_false, forall_eq_or_imp, forall_eq] at h
  obtain ⟨⟨h₁, h₂, h₃⟩, ⟨h₄, h₅⟩, h₆, _⟩ := h
  exact ⟨h₁, h₂, h₃, h₄, h₅, h₆⟩

theorem failIp_ne_failUser (x y : List Char) : limiter.failIp ++ x ≠ limiter.failUser ++ y :=
  ne_of_apart patterns_apart.1 x y

theorem failIp_ne_lockIp (x y : List Char) : limiter.failIp ++ x ≠ limiter.lockIp ++ y :=
  ne_of_apart patterns_apart.2.1 x y

theorem failIp_ne_lockUser (x y : List Char) : limiter.failIp ++ x ≠ limiter.lockUser ++ y :=
  ne_of_apart patterns_apart.2.2.1 x y

theorem failUser_ne_lockIp (x y : List Char) : limiter.failUser ++ x ≠ limiter.lockIp ++ y :=
  ne_of_apart patterns_apart.2.2.2.1 x y

theorem failUser_ne_lockUser (x y : List Char) : limiter.failUser ++ x ≠ limiter.lockUser ++ y :=
  ne_of_apart patterns_apart.2.2.2.2.1 x y

theorem lockIp_ne_lockUser (x y : List Char) : limiter.lockIp ++ x ≠ limiter.lockUser ++ y :=
  ne_of_apart patterns_apart.2.2.2.2.2 x y

/-! ## What a call leaves in the database -/

variable {db : Db (List Char)} {now : Nat} {log : List E} {a : A} {k : List Char}

/-- The database after the counters, before the locks. -/
def counted (limiter : LoginLimiter) (lower : List Char → List Char) (ip username : List Char) (now : Nat)
    (db : Db (List Char)) : Db (List Char) :=
  let ipKey := limiter.failIp ++ ip
  let userKey := limiter.failUser ++ uname lower username
  (((db.incr now ipKey).incr now userKey).expire now ipKey FAIL_COUNTER_TTL).expire now userKey FAIL_COUNTER_TTL

theorem counted_failIp : counted limiter lower ip username now db (limiter.failIp ++ ip) =
    some ⟨db.count now (limiter.failIp ++ ip) + 1, some (now + 1000 * FAIL_COUNTER_TTL)⟩ := by
  have hne := @failIp_ne_failUser limiter ip (uname lower username)
  have hlive : ((db.incr now (limiter.failIp ++ ip)).incr now (limiter.failUser ++ uname lower username)).live now
      (limiter.failIp ++ ip) = (db.incr now (limiter.failIp ++ ip)).live now (limiter.failIp ++ ip) :=
    Db.live_congr (Db.incr_of_ne hne)
  unfold counted
  rw [Db.expire_of_ne hne, Db.expire_live (hlive.trans (Db.live_incr ..))]

theorem counted_of_ne (hip : k ≠ limiter.failIp ++ ip) (huser : k ≠ limiter.failUser ++ uname lower username) :
    counted limiter lower ip username now db k = db k := by
  unfold counted
  rw [Db.expire_of_ne huser, Db.expire_of_ne hip, Db.incr_of_ne huser, Db.incr_of_ne hip]

variable {maxAttempts lockSeconds : Int}

def locked (limiter : LoginLimiter) (lower : List Char → List Char) (ip username : List Char) (now : Nat)
    (db : Db (List Char)) : Bool :=
  db.has now (limiter.lockIp ++ ip) || db.has now (limiter.lockUser ++ uname lower username)

theorem isLocked_alone {next : Bool → Limited E A} : (isLocked limiter lower ip username next).alone now (db, log) =
    (next (locked limiter lower ip username now db)).alone now (db, log) := by
  unfold isLocked locked
  simp only [Prog.alone]
  cases db.has now (limiter.lockIp ++ ip) <;> simp [Prog.alone]

theorem clear_alone : (clear limiter lower ip username (.reply a : Limited E A)).alone now (db, log) =
    (db.delete [limiter.failIp ++ ip, limiter.failUser ++ uname lower username], log) := rfl

def flagged (cnt maxAttempts lockSeconds : Int) (now : Nat) (k : List Char) (db : Db (List Char)) : Db (List Char) :=
  if maxAttempts < cnt ∧ 0 < lockSeconds then db.setex now k lockSeconds.toNat else db

theorem flagged_of_ne {cnt : Int} {k' : List Char} (h : k' ≠ k) :
    flagged cnt maxAttempts lockSeconds now k db k' = db k' := by
  unfold flagged
  split_ifs
  · exact Db.setex_of_ne h
  · rfl

theorem has_flagged {cnt : Int} : (flagged cnt maxAttempts lockSeconds now k db).has now k = true ↔
    (maxAttempts < cnt ∧ 0 < lockSeconds) ∨ db.has now k = true := by
  unfold flagged
  split_ifs with h
  · simp [h, Db.has_setex db now k (show 0 < lockSeconds.toNat by omega)]
  · simp [h]

theorem lockIf_alone {cnt : Int} {next : Limited E A} : (lockIf cnt maxAttempts lockSeconds k next).alone now (db, log) =
    if maxAttempts < cnt ∧ lockSeconds ≤ 0 then (db, log)
    else next.alone now (flagged cnt maxAttempts lockSeconds now k db, log) := by
  unfold lockIf flagged
  by_cases hcnt : maxAttempts < cnt
  · by_cases hsec : lockSeconds ≤ 0
    · simp [hcnt, hsec, Prog.alone]
    · simp [hcnt, hsec, Prog.alone, Int.not_le.mp hsec]
  · simp [hcnt]

theorem recordFailure_alone : ∃ db',
    (recordFailure limiter lower ip username maxAttempts lockSeconds (.reply a : Limited E A)).alone now (db, log) =
      (db', log) ∧
    (∀ k, k ≠ limiter.lockIp ++ ip → k ≠ limiter.lockUser ++ uname lower username →
      db' k = counted limiter lower ip username now db k) ∧
    (db'.has now (limiter.lockIp ++ ip) = true ↔
      (maxAttempts < db.count now (limiter.failIp ++ ip) + 1 ∧ 0 < lockSeconds) ∨
        db.has now (limiter.lockIp ++ ip) = true) := by
  let cnt := db.count now (limiter.failIp ++ ip) + 1
  let userCnt := (db.incr now (limiter.failIp ++ ip)).count now (limiter.failUser ++ uname lower username) + 1
  let db₁ := counted limiter lower ip username now db
  let db₂ := flagged cnt maxAttempts lockSeconds now (limiter.lockIp ++ ip) db₁
  have hflags : (recordFailure limiter lower ip username maxAttempts lockSeconds (.reply a : Limited E A)).alone now
      (db, log) = (lockIf cnt maxAttempts lockSeconds (limiter.lockIp ++ ip)
        (lockIf userCnt maxAttempts lockSeconds (limiter.lockUser ++ uname lower username) (.reply a))).alone now
          (db₁, log) := rfl
  have hlock : db₁.has now (limiter.lockIp ++ ip) = db.has now (limiter.lockIp ++ ip) :=
    Db.has_congr (counted_of_ne (failIp_ne_lockIp _ _).symm (failUser_ne_lockIp _ _).symm)
  have hset : db₂.has now (limiter.lockIp ++ ip) = true ↔
      (maxAttempts < cnt ∧ 0 < lockSeconds) ∨ db.has now (limiter.lockIp ++ ip) = true := by
    rw [has_flagged, hlock]
  rw [hflags, lockIf_alone]
  split_ifs with hraise
  · refine ⟨db₁, rfl, fun _ _ _ => rfl, ?_⟩
    rw [hlock]
    have hnot : ¬ (maxAttempts < cnt ∧ 0 < lockSeconds) := by omega
    exact (or_iff_right hnot).symm
  · rw [lockIf_alone]
    split_ifs
    · refine ⟨db₂, rfl, ?_, hset⟩
      intro k hk _
      exact flagged_of_ne hk
    · refine ⟨_, rfl, ?_, ?_⟩
      · intro k hk hk'
        rw [flagged_of_ne hk', flagged_of_ne hk]
      · rw [Db.has_congr (flagged_of_ne (lockIp_ne_lockUser _ _))]
        exact hset

/-! ## What the calls go on with -/

theorem lockIf_answer (h : 0 < lockSeconds) (cnt : Int) {next : Limited E A} (hnext : ∀ db, next.answer now db = some a) :
    (lockIf cnt maxAttempts lockSeconds k next).answer now db = some a := by
  unfold lockIf
  split_ifs
  · simp only [Prog.answer, Int.not_le.mpr h, if_false, hnext]
  · exact hnext db

theorem recordFailure_answer (h : 0 < lockSeconds) :
    (recordFailure limiter lower ip username maxAttempts lockSeconds (.reply a : Limited E A)).answer now db = some a := by
  unfold recordFailure
  simp only [Prog.answer]
  exact lockIf_answer h _ fun _ => lockIf_answer h _ fun _ => rfl

theorem isLocked_answer {next : Bool → Limited E A} : (isLocked limiter lower ip username next).answer now db =
    (next (locked limiter lower ip username now db)).answer now db := by
  unfold isLocked locked
  simp only [Prog.answer]
  cases db.has now (limiter.lockIp ++ ip) <;> simp [Prog.answer]

end LoginLimiter

end RdpProxy.Security
