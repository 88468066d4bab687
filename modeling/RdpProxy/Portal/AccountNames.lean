import RdpProxy.Portal.LoginWindow

/-!
# Two spellings of one account

The directory is asked for a `userPrincipalName`, to which a name without an `@` is completed.
The limiter counts by the name as it is typed.
-/

open RedisProg Text

namespace RdpProxy.Portal

open Security

/-! ## The source -/

/-- `str.lower`. No letter looks beyond an `@` for its lower case. -/
structure StrLower where
  lower : List Char → List Char
  lower_at : ∀ a b, lower (a ++ '@' :: b) = lower a ++ '@' :: lower b

def asciiLower : StrLower where
  lower := Text.lower
  lower_at a b := by
    unfold Text.lower
    rw [List.map_append, List.map_cons]
    rfl

/-- The `userPrincipalName` that `LDAPAuthenticator.authenticate` searches for, where it comes to a search. -/
def searchedUpn (domain username password : List Char) : Option (List Char) :=
  if username = [] ∨ password = [] then none
  else if '@' ∈ username then some username
  else some (username ++ '@' :: domain)

/-! ## One account, one limit -/

variable (str : StrLower) (domain : List Char)

/-- `login` looks up the account, whose name is written in lower case, for what has been typed. -/
def LooksUp (username account : List Char) : Prop :=
  ∃ password upn, searchedUpn domain (strip username) password = some upn ∧ str.lower upn = account

def SameAccount (u₁ u₂ : List Char) : Prop := ∃ account, LooksUp str domain u₁ account ∧ LooksUp str domain u₂ account

/-- The failures are counted and locked together, and a login goes the same way under both names. -/
structure SameLimit (u₁ u₂ : List Char) : Prop where
  counter : portalLimiter.failUser ++ uname str.lower u₁ = portalLimiter.failUser ++ uname str.lower u₂
  lock : portalLimiter.lockUser ++ uname str.lower u₁ = portalLimiter.lockUser ++ uname str.lower u₂
  login : ∀ maxAttempts lockSeconds (a : LoginAttempt), login str.lower maxAttempts lockSeconds { a with username := u₁ } =
    login str.lower maxAttempts lockSeconds { a with username := u₂ }

variable {str} {domain} {u u₁ u₂ account : List Char}

theorem at_mem_strip : '@' ∈ strip u ↔ '@' ∈ u := ⟨mem_of_mem_strip, fun h => mem_strip h (by decide)⟩

theorem looksUp_iff : LooksUp str domain u account ↔ strip u ≠ [] ∧
    account = if '@' ∈ u then str.lower (strip u) else str.lower (strip u) ++ '@' :: str.lower domain := by
  constructor
  · rintro ⟨password, upn, hupn, rfl⟩
    unfold searchedUpn at hupn
    simp only [at_mem_strip] at hupn
    split_ifs at hupn with hblank hat
    · cases hupn
      exact ⟨fun h => hblank (.inl h), (if_pos hat).symm⟩
    · cases hupn
      exact ⟨fun h => hblank (.inl h), by rw [if_neg hat, str.lower_at]⟩
  · rintro ⟨hname, rfl⟩
    refine ⟨['x'], if '@' ∈ u then strip u else strip u ++ '@' :: domain, ?_, ?_⟩
    · unfold searchedUpn
      rw [if_neg (by simp [hname])]
      simp only [at_mem_strip]
      split_ifs <;> rfl
    · split_ifs
      · rfl
      · exact str.lower_at ..

theorem sameLimit_of_uname (h : uname str.lower u₁ = uname str.lower u₂) : SameLimit str u₁ u₂ := by
  refine ⟨by rw [h], by rw [h], fun maxAttempts lockSeconds a => ?_⟩
  unfold Portal.login LoginLimiter.isLocked LoginLimiter.recordFailure LoginLimiter.clear
  simp only [h]

/-- Of two names for one account, one with a domain and the other without, the first is the longer one. -/
theorem uname_ne_of_mixed (h : SameAccount str domain u₁ u₂) (h₁ : '@' ∈ u₁) (h₂ : '@' ∉ u₂) :
    uname str.lower u₁ ≠ uname str.lower u₂ := by
  obtain ⟨account, hu₁, hu₂⟩ := h
  obtain ⟨_, haccount₁⟩ := looksUp_iff.mp hu₁
  obtain ⟨_, haccount₂⟩ := looksUp_iff.mp hu₂
  rw [if_pos h₁] at haccount₁
  rw [if_neg h₂, haccount₁] at haccount₂
  unfold uname
  rw [haccount₂, if_neg (by simp)]
  split_ifs with hempty
  · rw [hempty]
    simp
  · intro heq
    have hlength := congrArg List.length heq
    rw [List.length_append, List.length_cons] at hlength
    omega

theorem uname_eq_of_alike (h : SameAccount str domain u₁ u₂) (hboth : '@' ∈ u₁ ↔ '@' ∈ u₂) :
    uname str.lower u₁ = uname str.lower u₂ := by
  obtain ⟨account, hu₁, hu₂⟩ := h
  obtain ⟨_, haccount₁⟩ := looksUp_iff.mp hu₁
  obtain ⟨_, haccount₂⟩ := looksUp_iff.mp hu₂
  have hlower : str.lower (strip u₁) = str.lower (strip u₂) := by
    by_cases h₁ : '@' ∈ u₁
    · rw [if_pos h₁] at haccount₁
      rw [if_pos (hboth.mp h₁)] at haccount₂
      rw [← haccount₁, haccount₂]
    · rw [if_neg h₁] at haccount₁
      rw [if_neg fun h₂ => h₁ (hboth.mpr h₂), haccount₁] at haccount₂
      exact List.append_cancel_right haccount₂
  unfold uname
  rw [hlower]

/-- Names of one account share a limit exactly where both are typed with a domain, or both without. -/
theorem sameLimit_iff (str : StrLower) (domain u₁ u₂ : List Char) :
    (SameAccount str domain u₁ u₂ → SameLimit str u₁ u₂) ↔
      (SameAccount str domain u₁ u₂ → ('@' ∈ u₁ ↔ '@' ∈ u₂)) := by
  refine forall_congr' fun hsame => ⟨fun hlimit => ?_, fun hboth => ?_⟩
  · have huname := List.append_cancel_left hlimit.counter
    obtain ⟨account, hu₁, hu₂⟩ := hsame
    constructor
    · intro h₁
      by_contra h₂
      exact uname_ne_of_mixed ⟨account, hu₁, hu₂⟩ h₁ h₂ huname
    · intro h₂
      by_contra h₁
      exact uname_ne_of_mixed ⟨account, hu₂, hu₁⟩ h₂ h₁ huname.symm
  · exact sameLimit_of_uname (uname_eq_of_alike hsame hboth)

/-! ## Twice as many passwords -/

/-- A wrong password, from an address of its own each time. -/
def guess (ip username : String) : LoginAct :=
  ⟨1000, ip.toList, username.toList, "csrf".toList, "csrf".toList, true, false⟩

def bothSpellings : List LoginAct :=
  [guess "198.51.100.1" "alice", guess "198.51.100.2" "alice", guess "198.51.100.3" "alice",
    guess "198.51.100.4" "alice@corp", guess "198.51.100.5" "alice@corp", guess "198.51.100.6" "alice@corp"]

def oneSpelling : List LoginAct := bothSpellings.map fun act => { act with attempt.username := "alice".toList }

/-- With three wrong passwords to an account, six are checked where it is spelled in two ways. -/
theorem alice_twice : SameAccount asciiLower "corp".toList "alice".toList "alice@corp".toList ∧
    ¬ SameLimit asciiLower "alice".toList "alice@corp".toList ∧
    (oneSpelling.foldl (Logins.after Text.lower 2 900) .initial).history.length = 3 ∧
    (bothSpellings.foldl (Logins.after Text.lower 2 900) .initial).history.length = 6 := by
  refine ⟨⟨"alice@corp".toList, ?_, ?_⟩, fun h => ?_, by decide +kernel, by decide +kernel⟩
  · exact looksUp_iff.mpr ⟨by decide, rfl⟩
  · exact looksUp_iff.mpr ⟨by decide, rfl⟩
  · exact absurd h.counter (by decide)

end RdpProxy.Portal
