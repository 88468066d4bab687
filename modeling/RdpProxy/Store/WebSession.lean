import RdpProxy.Lib.Steps
import RdpProxy.Store.Payload

/-!
# The web-session methods of `SessionStore`, one Redis command at a time

Any number of clients call the methods on one session key. Each call is a chain of
phases, and each phase names the next command the call sends.
-/

open RedisKey Steps

namespace RdpProxy.Store

/-! ## The methods -/

inductive Call : Kind → Type where
  | getWebSession (browserFingerprint : String) : Call .web
  | deleteWebSession : Call .web
  | getAdminWebSession (browserFingerprint : String) : Call .admin
  | updateAdminMustChange (mustChangePassword : Bool) : Call .admin
  | deleteAdminWebSession : Call .admin

def Call.fingerprint {κ : Kind} : Call κ → Option String
  | .getWebSession fp => some fp
  | .getAdminWebSession fp => some fp
  | .deleteWebSession | .updateAdminMustChange _ | .deleteAdminWebSession => none

/-- How far a call has come. `ver` is what WATCH saw, `read` the payload that GET returned
and `now` the clock that the lookup read after it. -/
inductive Phase (F : Type) where
  | start
  | watched (ver : Nat)
  | rejecting (ver : Nat) (read : Payload F) (now : Int)
  | refreshing (ver : Nat) (read : Payload F) (now : Int)
  | storing (ver : Nat) (ttl : Int) (read : Payload F) (now : Int)
  | updating (payload : Payload F)
  | updateStoring (ttl : Int) (payload : Payload F)
  | returned (session : Option (Payload F × Int))

variable {F : Type}

/-- The common body of the two lookups, which differ only in the object they build from
the payload at the end. -/
def SessionStore.getSession (store : SessionStore) (fp : String) (now : Int) (clock : Nat) (key : Key (Payload F)) :
    Phase F → Option (Key (Payload F) × Phase F)
  | .start => some (key, .watched key.version)
  | .watched ver =>
    match key.get with
    | none => some (key, .returned none)
    | some payload =>
      if store.fingerprintMismatch fp payload then some (key, .rejecting ver payload now)
      else if store.idleTooLong now payload then some (key, .rejecting ver payload now)
      else some (key, .refreshing ver payload now)
  | .rejecting ver payload now =>
    -- EXEC of the queued DEL. `except WatchError: pass` falls through to the final `return`.
    if key.version = ver then some (key.delete, .returned none)
    else some (key, .returned (some (payload, now)))
  | .refreshing ver payload now =>
    let ttl := key.ttl clock
    if ttl > 0 then some (key, .storing ver ttl payload now)
    else some (key, .returned (some (payload, now)))
  | .storing ver ttl payload now =>
    if key.version = ver then
      some (key.setex clock ttl.toNat (payload.touch now), .returned (some (payload, now)))
    else some (key, .returned (some (payload, now)))
  | _ => none

def SessionStore.getWebSession (store : SessionStore) := store.getSession (F := WebFields)

def SessionStore.getAdminWebSession (store : SessionStore) := store.getSession (F := AdminFields)

def SessionStore.deleteKey (key : Key (Payload F)) : Phase F → Option (Key (Payload F) × Phase F)
  | .start => some (key.delete, .returned none)
  | _ => none

def SessionStore.deleteWebSession := deleteKey (F := WebFields)

def SessionStore.deleteAdminWebSession := deleteKey (F := AdminFields)

def SessionStore.updateAdminMustChange (mustChange : Bool) (clock : Nat) (key : Key (Payload AdminFields)) :
    Phase AdminFields → Option (Key (Payload AdminFields) × Phase AdminFields)
  | .start =>
    match key.get with
    | none => some (key, .returned none)
    | some payload =>
      some (key, .updating { payload with fields := { payload.fields with mustChangePassword := mustChange } })
  | .updating payload =>
    let ttl := key.ttl clock
    if ttl > 0 then some (key, .updateStoring ttl payload) else some (key, .returned none)
  | .updateStoring ttl payload => some (key.setex clock ttl.toNat payload, .returned none)
  | _ => none

def Call.next {κ : Kind} (store : SessionStore) (now : Int) (clock : Nat) (key : Key (Payload (Fields κ)))
    (phase : Phase (Fields κ)) : Call κ → Option (Key (Payload (Fields κ)) × Phase (Fields κ))
  | .getWebSession fp => store.getWebSession fp now clock key phase
  | .getAdminWebSession fp => store.getAdminWebSession fp now clock key phase
  | .deleteWebSession => SessionStore.deleteWebSession key phase
  | .deleteAdminWebSession => SessionStore.deleteAdminWebSession key phase
  | .updateAdminMustChange b => SessionStore.updateAdminMustChange b clock key phase

/-! ## Many clients on one key -/

structure Clients (ι : Type) (F : Type) where
  key : Key (Payload F)
  clock : Nat
  phase : ι → Phase F

/-- One command of one client, with what its `time.time()` would read, or time passing. -/
inductive Turn (ι : Type) where
  | command (client : ι) (now : Int)
  | tick (ms : Nat)

variable {ι : Type} [DecidableEq ι] {κ : Kind}

def Clients.step (store : SessionStore) (calls : ι → Call κ) (s : Clients ι (Fields κ)) :
    Turn ι → Option (Clients ι (Fields κ))
  | .command i now =>
    match (calls i).next store now s.clock s.key (s.phase i) with
    | none => none
    | some (key, phase) => some { s with key := key, phase := Function.update s.phase i phase }
  | .tick ms => some { s with clock := s.clock + ms, key := s.key.expire (s.clock + ms) }

/-- Any stored session or none, at any time, and no call under way. -/
def Clients.initial (key : Key (Payload F)) (clock : Nat) : Clients ι F := ⟨key, clock, fun _ => .start⟩

/-! ## What one command does -/

theorem next_of_fingerprint {c : Call κ} {fp : String} (h : c.fingerprint = some fp) (store : SessionStore)
    (now : Int) (clock : Nat) (key : Key (Payload (Fields κ))) (phase : Phase (Fields κ)) :
    c.next store now clock key phase = store.getSession fp now clock key phase := by
  cases c with
  | getWebSession f => cases h; rfl
  | getAdminWebSession f => cases h; rfl
  | deleteWebSession => cases h
  | updateAdminMustChange b => cases h
  | deleteAdminWebSession => cases h

/-- Past the checks of a lookup, or returned from it, the payload admits the caller. -/
def Phase.Sound (store : SessionStore) (fp : String) : Phase F → Prop
  | .refreshing _ read now => store.Admits fp now read
  | .storing _ _ read now => store.Admits fp now read
  | .returned (some (read, now)) => store.Admits fp now read
  | _ => True

def Phase.Undisturbed (key : Key (Payload F)) : Phase F → Prop
  | .rejecting ver _ _ => key.version = ver
  | _ => True

theorem getSession_sound {store : SessionStore} {fp : String} {now : Int} {clock : Nat}
    {key key' : Key (Payload F)} {phase phase' : Phase F} (hs : phase.Sound store fp)
    (hu : phase.Undisturbed key) (h : store.getSession fp now clock key phase = some (key', phase')) :
    phase'.Sound store fp := by
  cases phase with
  | start => cases h; trivial
  | watched ver =>
    simp only [SessionStore.getSession] at h
    split at h
    · cases h; trivial
    · split_ifs at h with hm hi
      · cases h; trivial
      · cases h; trivial
      · cases h
        exact (admits_iff ..).mpr (by simp [hm, hi])
  | rejecting ver read n =>
    simp only [SessionStore.getSession] at h
    rw [if_pos (show key.version = ver from hu)] at h
    cases h; trivial
  | refreshing ver read n =>
    simp only [SessionStore.getSession] at h
    split_ifs at h <;> cases h <;> exact hs
  | storing ver ttl read n =>
    simp only [SessionStore.getSession] at h
    split_ifs at h <;> cases h <;> exact hs
  | updating payload => cases h
  | updateStoring ttl payload => cases h
  | returned session => cases h

theorem next_rejecting {c : Call κ} {store : SessionStore} {now n : Int} {clock ver : Nat}
    {key key' : Key (Payload (Fields κ))} {phase : Phase (Fields κ)} {read : Payload (Fields κ)}
    (h : c.next store now clock key phase = some (key', .rejecting ver read n)) :
    ∃ fp, c.fingerprint = some fp ∧ ¬ store.Admits fp n read := by
  have hget : ∀ fp, store.getSession fp now clock key phase = some (key', .rejecting ver read n) →
      ¬ store.Admits fp n read := by
    intro fp h
    cases phase <;> simp only [SessionStore.getSession] at h
    case watched ver' =>
      split at h
      · cases h
      · rw [admits_iff, not_not]
        split_ifs at h with hm hi
        · cases h; exact Or.inl hm
        · cases h; exact Or.inr hi
        · cases h
    all_goals first | cases h | (split_ifs at h <;> cases h)
  cases c with
  | getWebSession fp => exact ⟨fp, rfl, hget fp h⟩
  | getAdminWebSession fp => exact ⟨fp, rfl, hget fp h⟩
  | deleteWebSession => cases phase <;> cases h
  | deleteAdminWebSession => cases phase <;> cases h
  | updateAdminMustChange b =>
    cases phase <;> simp only [Call.next, SessionStore.updateAdminMustChange] at h
    all_goals first | cases h | (split at h <;> cases h)

theorem next_returned (c : Call κ) (store : SessionStore) (now : Int) (clock : Nat)
    (key : Key (Payload (Fields κ))) (r : Option (Payload (Fields κ) × Int)) :
    c.next store now clock key (.returned r) = none := by
  cases c <;> rfl

theorem next_disturbed {c : Call κ} {store : SessionStore} {now n : Int} {clock ver : Nat}
    {key : Key (Payload (Fields κ))} {read : Payload (Fields κ)} {fp : String}
    (hc : c.fingerprint = some fp) (h : key.version ≠ ver) :
    c.next store now clock key (.rejecting ver read n) = some (key, .returned (some (read, n))) := by
  rw [next_of_fingerprint hc]
  exact if_neg h

/-! ## Runs -/

theorem step_cases {store : SessionStore} {calls : ι → Call κ} {s s' : Clients ι (Fields κ)} {t : Turn ι}
    (h : s.step store calls t = some s') :
    (∃ i now key phase, t = .command i now ∧
      (calls i).next store now s.clock s.key (s.phase i) = some (key, phase) ∧
      s' = { s with key := key, phase := Function.update s.phase i phase }) ∨
    ∃ ms, t = .tick ms ∧ s' = { s with clock := s.clock + ms, key := s.key.expire (s.clock + ms) } := by
  cases t with
  | command i now =>
    simp only [Clients.step] at h
    split at h
    · cases h
    · rename_i key phase hn
      cases h
      exact Or.inl ⟨i, now, key, phase, rfl, hn, rfl⟩
  | tick ms => cases h; exact Or.inr ⟨ms, rfl, rfl⟩

/-- Every lookup that has returned a session read a payload that admits its caller. -/
def Clients.Sound (store : SessionStore) (calls : ι → Call κ) (s : Clients ι (Fields κ)) : Prop :=
  ∀ i fp read now, (calls i).fingerprint = some fp → s.phase i = .returned (some (read, now)) →
    store.Admits fp now read

/-- No other client has modified the key between the WATCH of a rejecting lookup and its EXEC. -/
def RejectsUndisturbed (s : Clients ι F) : Turn ι → Prop
  | .command i _ => (s.phase i).Undisturbed s.key
  | .tick _ => True

theorem step_sound {store : SessionStore} {calls : ι → Call κ} (s : Clients ι (Fields κ)) (t : Turn ι)
    (s' : Clients ι (Fields κ)) (hs : ∀ i fp, (calls i).fingerprint = some fp → (s.phase i).Sound store fp)
    (hu : RejectsUndisturbed s t) (h : s.step store calls t = some s') :
    ∀ i fp, (calls i).fingerprint = some fp → (s'.phase i).Sound store fp := by
  intro j fp hj
  obtain ⟨i, now, key, phase, rfl, hn, rfl⟩ | ⟨ms, rfl, rfl⟩ := step_cases h
  · by_cases hji : j = i
    · subst hji
      rw [next_of_fingerprint hj] at hn
      simpa using getSession_sound (hs j fp hj) hu hn
    · simpa [Function.update_of_ne hji] using hs j fp hj
  · exact hs j fp hj

/-- In its reject branch a call holds a payload that does not admit it. -/
def RejectsOnly (store : SessionStore) (calls : ι → Call κ) (s : Clients ι (Fields κ)) : Prop :=
  ∀ i ver read n, s.phase i = .rejecting ver read n →
    ∃ fp, (calls i).fingerprint = some fp ∧ ¬ store.Admits fp n read

theorem step_rejectsOnly {store : SessionStore} {calls : ι → Call κ} (s : Clients ι (Fields κ)) (t : Turn ι)
    (s' : Clients ι (Fields κ)) (hs : RejectsOnly store calls s) (h : s.step store calls t = some s') :
    RejectsOnly store calls s' := by
  intro j ver read n hj
  obtain ⟨i, now, key, phase, rfl, hn, rfl⟩ | ⟨ms, rfl, rfl⟩ := step_cases h
  · by_cases hji : j = i
    · subst hji
      simp only [Function.update_self] at hj
      rw [hj] at hn
      exact next_rejecting hn
    · simp only [Function.update_of_ne hji] at hj
      exact hs j ver read n hj
  · exact hs j ver read n hj

theorem step_returned {store : SessionStore} {calls : ι → Call κ} {i : ι}
    {r : Option (Payload (Fields κ) × Int)} (s : Clients ι (Fields κ)) (t : Turn ι) (s' : Clients ι (Fields κ))
    (hs : s.phase i = .returned r) (h : s.step store calls t = some s') : s'.phase i = .returned r := by
  obtain ⟨j, now, key, phase, rfl, hn, rfl⟩ | ⟨ms, rfl, rfl⟩ := step_cases h
  · by_cases hij : i = j
    · subst hij
      rw [hs, next_returned] at hn
      cases hn
    · simpa [Function.update_of_ne hij] using hs
  · exact hs

/-- A disturbed rejection hands out a session that it should not, for the rest of the run. -/
theorem disturbed_unsound {store : SessionStore} {calls : ι → Call κ} {s s' : Clients ι (Fields κ)}
    {t : Turn ι} (hr : RejectsOnly store calls s) (hd : ¬ RejectsUndisturbed s t)
    (h : s.step store calls t = some s') :
    ∃ i fp read now, (calls i).fingerprint = some fp ∧ ¬ store.Admits fp now read ∧
      s'.phase i = .returned (some (read, now)) := by
  obtain ⟨i, now, key, phase, rfl, hn, rfl⟩ | ⟨ms, rfl, rfl⟩ := step_cases h
  · cases hp : s.phase i with
    | rejecting ver read n =>
      simp only [RejectsUndisturbed, hp, Phase.Undisturbed] at hd
      obtain ⟨fp, hfp, hno⟩ := hr i ver read n hp
      rw [hp, next_disturbed hfp hd] at hn
      cases hn
      exact ⟨i, fp, read, n, hfp, hno, by simp⟩
    | _ => simp [RejectsUndisturbed, hp, Phase.Undisturbed] at hd
  · exact absurd trivial hd

/-! ## The guarantee of a lookup -/

theorem lookup_sound_iff (store : SessionStore) (calls : ι → Call κ) (key : Key (Payload (Fields κ)))
    (clock : Nat) (turns : List (Turn ι)) (s : Clients ι (Fields κ))
    (hrun : run (Clients.step store calls) (.initial key clock) turns = some s) :
    s.Sound store calls ↔
      Along (Clients.step store calls) RejectsUndisturbed (.initial key clock) turns := by
  constructor
  · intro hs
    by_contra hnot
    obtain ⟨pre, t, post, s₁, rfl, hpre, hd⟩ := exists_of_not_along hnot
    obtain ⟨s₁', h₁, hrest⟩ := run_append_eq_some.mp hrun
    rw [hpre] at h₁
    cases h₁
    obtain ⟨s₂, ht, hpost⟩ := run_cons_eq_some.mp hrest
    have hr : RejectsOnly store calls s₁ :=
      run_keeps step_rejectsOnly hpre (by intro i ver read n h; cases h)
    obtain ⟨i, fp, read, now, hfp, hno, hret⟩ := disturbed_unsound hr hd ht
    exact hno (hs i fp read now hfp (run_keeps (I := fun s => s.phase i = _) step_returned hpost hret))
  · intro hall
    have h := run_inv step_sound hrun hall (by intro i fp _; trivial)
    intro i fp read now hfp hret
    have := h i fp hfp
    rw [hret] at this
    exact this

/-! ## A race -/

def raceDigest (fp : String) : HexDigest :=
  if fp = "Mozilla/5.0 (Windows NT 10.0)|ru" then
    ⟨"8ee3f4427cd98c296fb5e0a2637971b70a2f90b0a8969ea29dcc454407bb2991", by decide⟩
  else ⟨"7382b818175b6020f0a3e6e486a9cdab35f0b23f2c3c7e759abc572329e92146", by decide⟩

def raceStore : SessionStore := ⟨1800, raceDigest⟩

/-- An admin session of the first browser, last seen at second 100. -/
def raceSession : Payload AdminFields :=
  ⟨some (raceDigest "Mozilla/5.0 (Windows NT 10.0)|ru"), some 100, ⟨"1", "admin", false, []⟩⟩

def raceKey : Key (Payload AdminFields) := ⟨some (raceSession, 28800000), 1⟩

def raceCalls : Bool → Call .admin
  | true => .getAdminWebSession "Mozilla/5.0 (Windows NT 10.0)|ru"
  | false => .getAdminWebSession "curl/8.5.0|"

/-- The stranger's WATCH and GET, the owner's whole lookup, the stranger's EXEC. -/
def raceTurns : List (Turn Bool) :=
  [.command false 101, .command false 101, .command true 101, .command true 101, .command true 101,
    .command true 101, .command false 101]

/-- The owner's refresh makes the stranger's rejecting EXEC fail, and the stranger gets
the session. -/
theorem stranger_admitted :
    ∃ s, run (Clients.step raceStore raceCalls) (.initial raceKey 0) raceTurns = some s ∧
      ¬ s.Sound raceStore raceCalls := by
  refine ⟨_, rfl, ?_⟩
  intro h
  have hadmit := h false _ raceSession 101 rfl rfl
  revert hadmit
  decide

theorem lookup_sound_in_turn :
    ∃ s, run (Clients.step raceStore raceCalls) (.initial raceKey 0)
        [.command true 101, .command true 101, .command true 101, .command true 101,
          .command false 102, .command false 102, .command false 102] = some s ∧
      (s.Sound raceStore raceCalls ↔ Along (Clients.step raceStore raceCalls) RejectsUndisturbed
        (.initial raceKey 0) [.command true 101, .command true 101, .command true 101, .command true 101,
          .command false 102, .command false 102, .command false 102]) :=
  ⟨_, rfl, lookup_sound_iff raceStore raceCalls raceKey 0 _ _ rfl⟩

end RdpProxy.Store
