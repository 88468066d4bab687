import RdpProxy.Lib.KeyClients
import RdpProxy.Store.TokenKill
import RdpProxy.Store.WebSession

/-!
# Session keys: gone for good, and gone in time

All methods of `SessionStore` on one key of one kind: the RDP token, the portal session,
the admin session.
-/

open RedisKey Steps KeyClients

namespace RdpProxy.Store

/-! ## The methods on a key -/

inductive SessionKind where
  | token
  | browser (κ : Kind)

abbrev SessionKind.Value : SessionKind → Type
  | .token => TokenPayload
  | .browser κ => Payload (Fields κ)

abbrev SessionKind.Phase : SessionKind → Type
  | .token => HandlerPhase
  | .browser κ => Store.Phase (Fields κ)

inductive SessionCall : SessionKind → Type where
  | getSession : SessionCall .token
  | tokenFingerprintMatches (fingerprint : String) : SessionCall .token
  | setTokenFingerprint (fingerprint : String) : SessionCall .token
  | deleteSession : SessionCall .token
  | browser {κ : Kind} (call : Call κ) : SessionCall (.browser κ)

/-- The phases of the token methods are those of a handler, which calls them one after another. -/
def SessionCall.start {k : SessionKind} : SessionCall k → k.Phase
  | .getSession => .resolving
  | .tokenFingerprintMatches _ => .matching
  | .setTokenFingerprint _ => .watching
  | .deleteSession => .resolving
  | .browser _ => .start

def SessionStore.deleteSession (key : Key TokenPayload) : HandlerPhase → Option (Key TokenPayload × HandlerPhase)
  | .resolving => some (key.delete, .finished)
  | _ => none

def SessionCall.next {k : SessionKind} (store : SessionStore) (now : Int) (clock : Nat) (key : Key k.Value)
    (phase : k.Phase) (call : SessionCall k) : Option (Key k.Value × k.Phase) :=
  match k, call, key, phase with
  | _, .getSession, key, phase => Handler.next store.fingerprintDigest clock key ⟨(), "", false, phase⟩
  | _, .tokenFingerprintMatches fp, key, phase =>
    Handler.next store.fingerprintDigest clock key ⟨(), fp, true, phase⟩
  | _, .setTokenFingerprint fp, key, phase => Handler.next store.fingerprintDigest clock key ⟨(), fp, true, phase⟩
  | _, .deleteSession, key, phase => SessionStore.deleteSession key phase
  | _, .browser call, key, phase => call.next store now clock key phase

variable {ι : Type} {k : SessionKind}

abbrev Sessions (ι : Type) (k : SessionKind) := Shared ι k.Value k.Phase

def sessionNext (store : SessionStore) (calls : ι → SessionCall k) : Next ι k.Value k.Phase Int :=
  fun i now clock key phase => (calls i).next store now clock key phase

/-- Some key, at some time, and no call under way. -/
def Sessions.initial (calls : ι → SessionCall k) (key : Key k.Value) (clock : Nat) : Sessions ι k :=
  ⟨key, clock, fun i => (calls i).start⟩

/-! ## What one command does to the key -/

/-- A SETEX that is to come: the counter it depends on, where there was a WATCH, and its TTL. -/
structure Write where
  watched : Option Nat
  ttl : Int

def Write.GoesThrough {V : Type} (w : Write) (key : Key V) : Prop := ∀ ver ∈ w.watched, key.version = ver

def HandlerPhase.write : HandlerPhase → Option Write
  | .storing ver ttl _ => some ⟨some ver, ttl⟩
  | _ => none

def Phase.write {F : Type} : Phase F → Option Write
  | .storing ver ttl _ _ => some ⟨some ver, ttl⟩
  -- `update_admin_must_change` has no WATCH.
  | .updateStoring ttl _ => some ⟨none, ttl⟩
  | _ => none

def SessionKind.write : (k : SessionKind) → k.Phase → Option Write
  | .token => HandlerPhase.write
  | .browser _ => Phase.write

inductive Effect {V : Type} (clock : Nat) (key : Key V) (write : Option Write) (key' : Key V) : Prop where
  | keep (silent : ∀ w ∈ write, ¬ w.GoesThrough key) (same : key' = key)
  | delete (silent : write = none) (gone : key' = key.delete)
  | set (w : Write) (v : V) (pending : write = some w) (through : w.GoesThrough key)
      (after : key' = key.setex clock w.ttl.toNat v)

theorem Effect.keep_of_none {V : Type} {clock : Nat} {key : Key V} {write : Option Write} (h : write = none) :
    Effect clock key write key := by
  apply Effect.keep
  · intro w hw
    rw [h] at hw
    cases hw
  · rfl

theorem Effect.keep_of_moved {V : Type} {clock ver : Nat} {ttl : Int} {key : Key V} (h : ¬ key.version = ver) :
    Effect clock key (some ⟨some ver, ttl⟩) key := by
  apply Effect.keep
  · rintro w ⟨⟩ hw
    exact h (hw ver rfl)
  · rfl

theorem Effect.set_of_same {V : Type} {clock ver : Nat} {ttl : Int} {key : Key V} (v : V) (h : key.version = ver) :
    Effect clock key (some ⟨some ver, ttl⟩) (key.setex clock ttl.toNat v) := by
  apply Effect.set _ v rfl _ rfl
  rintro u ⟨⟩
  exact h

theorem Effect.later {V : Type} {clock : Nat} {key key' : Key V} {write : Option Write}
    (h : Effect clock key write key') : Later key key' := by
  cases h with
  | keep _ hk => rw [hk]; exact later_refl key
  | delete _ hk => rw [hk]; exact delete_later key
  | set w v _ _ hk => rw [hk]; exact setex_later ..

/-! ### What a call knows -/

/-- From the GET of a call to its EXEC the key has not gone unless WATCH can tell. -/
def HandlerPhase.Knows (key : Key TokenPayload) : HandlerPhase → Prop
  | .watched ver => ver ≤ key.version
  | .read ver _ => Guarded ver key
  | .storing ver ttl _ => Guarded ver key ∧ 0 < ttl
  | _ => True

def Phase.Knows {F : Type} (key : Key (Payload F)) : Phase F → Prop
  | .watched ver => ver ≤ key.version
  | .rejecting ver _ _ => Guarded ver key
  | .refreshing ver _ _ => Guarded ver key
  | .storing ver ttl _ _ => Guarded ver key ∧ 0 < ttl
  | .updateStoring ttl _ => 0 < ttl
  | _ => True

def SessionKind.Knows : (k : SessionKind) → Key k.Value → k.Phase → Prop
  | .token => HandlerPhase.Knows
  | .browser _ => Phase.Knows

theorem knows_later {key key' : Key k.Value} {phase : k.Phase} (h : k.Knows key phase) (hl : Later key key') :
    k.Knows key' phase := by
  cases k with
  | token =>
    cases phase with
    | watched ver => exact Nat.le_trans h hl.version_le
    | read ver p => exact Guarded.later h hl
    | storing ver ttl p => exact ⟨h.1.later hl, h.2⟩
    | _ => trivial
  | browser κ =>
    cases phase with
    | watched ver => exact Nat.le_trans h hl.version_le
    | rejecting ver p now => exact Guarded.later h hl
    | refreshing ver p now => exact Guarded.later h hl
    | storing ver ttl p now => exact ⟨h.1.later hl, h.2⟩
    | updateStoring ttl p => exact h
    | _ => trivial

theorem nothing_written {n : Int} : ∀ w ∈ (none : Option Write), w.ttl = n := by
  intro w hw
  cases hw

theorem handler_effect {digest : String → HexDigest} {clock : Nat} {key key' : Key TokenPayload}
    {fp : String} {enforce : Bool} {phase phase' : HandlerPhase} (hk : phase.Knows key)
    (h : Handler.next digest clock key ⟨(), fp, enforce, phase⟩ = some (key', phase')) :
    Effect clock key phase.write key' ∧ phase'.Knows key' ∧ ∀ w ∈ phase'.write, w.ttl = key.ttl clock := by
  cases phase with
  | resolving =>
    simp only [Handler.next] at h
    split at h
    · cases h; exact ⟨.keep_of_none rfl, trivial, nothing_written⟩
    · split_ifs at h
      · split at h <;> cases h <;> exact ⟨.keep_of_none rfl, trivial, nothing_written⟩
      · cases h; exact ⟨.keep_of_none rfl, trivial, nothing_written⟩
  | matching =>
    simp only [Handler.next] at h
    split_ifs at h <;> cases h <;> exact ⟨.keep_of_none rfl, trivial, nothing_written⟩
  | watching => cases h; exact ⟨.keep_of_none rfl, Nat.le_refl _, nothing_written⟩
  | watched ver =>
    simp only [Handler.next] at h
    split at h
    · cases h; exact ⟨.keep_of_none rfl, trivial, nothing_written⟩
    · rename_i hg
      cases h
      exact ⟨.keep_of_none rfl, ⟨hk, fun _ => by simp [hg]⟩, nothing_written⟩
  | read ver payload =>
    simp only [Handler.next] at h
    split_ifs at h with ht <;> cases h
    · exact ⟨.keep_of_none rfl, trivial, nothing_written⟩
    · exact ⟨.keep_of_none rfl, ⟨hk, Int.not_le.mp ht⟩, by rintro w ⟨⟩; rfl⟩
  | storing ver ttl payload =>
    simp only [Handler.next] at h
    split_ifs at h with hv <;> cases h
    · exact ⟨.set_of_same payload hv, trivial, nothing_written⟩
    · exact ⟨.keep_of_moved hv, trivial, nothing_written⟩
  | starting | relaying | finished | rejected => cases h

theorem getSession_effect {F : Type} {store : SessionStore} {fp : String} {now : Int} {clock : Nat}
    {key key' : Key (Payload F)} {phase phase' : Phase F} (hk : phase.Knows key)
    (h : store.getSession fp now clock key phase = some (key', phase')) :
    Effect clock key phase.write key' ∧ phase'.Knows key' ∧ ∀ w ∈ phase'.write, w.ttl = key.ttl clock := by
  cases phase with
  | start => cases h; exact ⟨.keep_of_none rfl, Nat.le_refl _, nothing_written⟩
  | watched ver =>
    simp only [SessionStore.getSession] at h
    split at h
    · cases h; exact ⟨.keep_of_none rfl, trivial, nothing_written⟩
    · rename_i hg
      have hread : Guarded ver key := ⟨hk, fun _ => by simp [hg]⟩
      split_ifs at h <;> cases h <;> exact ⟨.keep_of_none rfl, hread, nothing_written⟩
  | rejecting ver read n =>
    simp only [SessionStore.getSession] at h
    split_ifs at h <;> cases h
    · exact ⟨.delete rfl rfl, trivial, nothing_written⟩
    · exact ⟨.keep_of_none rfl, trivial, nothing_written⟩
  | refreshing ver read n =>
    simp only [SessionStore.getSession] at h
    split_ifs at h with ht <;> cases h
    · exact ⟨.keep_of_none rfl, ⟨hk, ht⟩, by rintro w ⟨⟩; rfl⟩
    · exact ⟨.keep_of_none rfl, trivial, nothing_written⟩
  | storing ver ttl read n =>
    simp only [SessionStore.getSession] at h
    split_ifs at h with hv <;> cases h
    · exact ⟨.set_of_same _ hv, trivial, nothing_written⟩
    · exact ⟨.keep_of_moved hv, trivial, nothing_written⟩
  | updating payload => cases h
  | updateStoring ttl payload => cases h
  | returned session => cases h

theorem updateAdminMustChange_effect {mustChange : Bool} {clock : Nat}
    {key key' : Key (Payload AdminFields)} {phase phase' : Phase AdminFields}
    (h : SessionStore.updateAdminMustChange mustChange clock key phase = some (key', phase')) :
    Effect clock key phase.write key' ∧ phase'.Knows key' ∧ ∀ w ∈ phase'.write, w.ttl = key.ttl clock := by
  cases phase with
  | start =>
    simp only [SessionStore.updateAdminMustChange] at h
    split at h <;> cases h <;> exact ⟨.keep_of_none rfl, trivial, nothing_written⟩
  | updating payload =>
    simp only [SessionStore.updateAdminMustChange] at h
    split_ifs at h with ht <;> cases h
    · exact ⟨.keep_of_none rfl, ht, by rintro w ⟨⟩; rfl⟩
    · exact ⟨.keep_of_none rfl, trivial, nothing_written⟩
  | updateStoring ttl payload =>
    cases h
    refine ⟨.set ⟨none, ttl⟩ payload rfl ?_ rfl, trivial, nothing_written⟩
    rintro ver ⟨⟩
  | watched ver => cases h
  | rejecting ver read n => cases h
  | refreshing ver read n => cases h
  | storing ver ttl read n => cases h
  | returned session => cases h

theorem deleteKey_effect {F : Type} {clock : Nat} {key key' : Key (Payload F)} {phase phase' : Phase F}
    (h : SessionStore.deleteKey key phase = some (key', phase')) :
    Effect clock key phase.write key' ∧ phase'.Knows key' ∧ ∀ w ∈ phase'.write, w.ttl = key.ttl clock := by
  unfold SessionStore.deleteKey at h
  split at h
  · cases h; exact ⟨.delete rfl rfl, trivial, nothing_written⟩
  · cases h

theorem sessionNext_effect {store : SessionStore} {calls : ι → SessionCall k} {i : ι} {now : Int} {clock : Nat}
    {key key' : Key k.Value} {phase phase' : k.Phase} (hk : k.Knows key phase)
    (h : sessionNext store calls i now clock key phase = some (key', phase')) :
    Effect clock key (k.write phase) key' ∧ k.Knows key' phase' ∧ ∀ w ∈ k.write phase', w.ttl = key.ttl clock := by
  unfold sessionNext at h
  cases hc : calls i with
  | getSession => rw [hc] at h; exact handler_effect hk h
  | tokenFingerprintMatches fp => rw [hc] at h; exact handler_effect hk h
  | setTokenFingerprint fp => rw [hc] at h; exact handler_effect hk h
  | deleteSession =>
    rw [hc] at h
    simp only [SessionCall.next, SessionStore.deleteSession] at h
    split at h
    · cases h; exact ⟨.delete rfl rfl, trivial, nothing_written⟩
    · cases h
  | browser call =>
    rw [hc] at h
    cases call with
    | getWebSession fp => exact getSession_effect hk h
    | getAdminWebSession fp => exact getSession_effect hk h
    | updateAdminMustChange b => exact updateAdminMustChange_effect h
    | deleteWebSession => exact deleteKey_effect h
    | deleteAdminWebSession => exact deleteKey_effect h

/-! ## Steps -/

theorem knows_write {key : Key k.Value} {phase : k.Phase} (h : k.Knows key phase) {w : Write}
    (hw : w ∈ k.write phase) : 0 < w.ttl ∧ ∀ ver ∈ w.watched, Guarded ver key := by
  cases k with
  | token =>
    cases phase with
    | storing ver ttl p =>
      cases hw
      refine ⟨h.2, ?_⟩
      rintro u ⟨⟩
      exact h.1
    | _ => cases hw
  | browser κ =>
    cases phase with
    | storing ver ttl p now =>
      cases hw
      refine ⟨h.2, ?_⟩
      rintro u ⟨⟩
      exact h.1
    | updateStoring ttl p =>
      cases hw
      refine ⟨h, ?_⟩
      rintro u ⟨⟩
    | _ => cases hw

def Sessions.Know (s : Sessions ι k) : Prop := ∀ i, k.Knows s.key (s.phase i)

theorem initial_know (calls : ι → SessionCall k) (key : Key k.Value) (clock : Nat) :
    (Sessions.initial calls key clock).Know := by
  intro i
  unfold Sessions.initial
  cases hc : calls i <;> simp only [hc, SessionCall.start] <;> trivial

section

variable [DecidableEq ι] {store : SessionStore} {calls : ι → SessionCall k} {s s' : Sessions ι k} {m : Move ι Int}

theorem session_step_know (hs : s.Know) (h : step (sessionNext store calls) s m = some s') : s'.Know := by
  refine (step_knows (L := fun _ => k.Knows) (fun _ _ _ _ hk hl => knows_later hk hl) ?_ hs h).2
  intro i now clock key phase key' phase' hk hn
  obtain ⟨he, hk', _⟩ := sessionNext_effect hk hn
  exact ⟨he.later, hk'⟩

theorem session_step_cases (hs : s.Know) (h : step (sessionNext store calls) s m = some s') :
    (∃ i now, m = .command i now ∧ Effect s.clock s.key (k.write (s.phase i)) s'.key ∧ s'.clock = s.clock) ∨
    ∃ ms, m = .tick ms ∧ s'.key = s.key.expire (s.clock + ms) ∧ s'.clock = s.clock + ms := by
  obtain ⟨i, now, key, phase, rfl, hn, rfl⟩ | ⟨ms, rfl, rfl⟩ := KeyClients.step_cases h
  · exact Or.inl ⟨i, now, rfl, (sessionNext_effect (hs i) hn).1, rfl⟩
  · exact Or.inr ⟨ms, rfl, rfl, rfl⟩

end

/-! ## Deleted sessions -/

/-- The step is not the SETEX of `update_admin_must_change`, the only one without WATCH. -/
def NoBlindSet (s : Sessions ι k) : Move ι Int → Prop
  | .command i _ => ∀ w ∈ k.write (s.phase i), w.watched ≠ none
  | .tick _ => True

section

variable [DecidableEq ι] {store : SessionStore} {calls : ι → SessionCall k}

theorem step_gone_iff {s s' : Sessions ι k} {m : Move ι Int} (hs : s.Know) (hg : s.key.get = none)
    (h : step (sessionNext store calls) s m = some s') : s'.key.get = none ↔ NoBlindSet s m := by
  obtain ⟨i, now, rfl, he, _⟩ | ⟨ms, rfl, hk, _⟩ := session_step_cases hs h
  · cases he with
    | keep silent same =>
      rw [same]
      refine iff_of_true hg ?_
      intro w hw hn
      apply silent w hw
      rw [Write.GoesThrough, hn]
      rintro ver ⟨⟩
    | delete silent gone =>
      rw [gone]
      refine iff_of_true (get_delete _) ?_
      intro w hw
      rw [silent] at hw
      cases hw
    | set w v pending through after =>
      rw [after]
      refine iff_of_false (by simp) ?_
      intro hno
      obtain ⟨ver, hver⟩ := Option.ne_none_iff_exists'.mp (hno w pending)
      obtain ⟨_, hguard⟩ := (knows_write (hs i) pending).2 ver hver
      exact hguard (through ver hver) hg
  · rw [hk]
    exact iff_of_true (get_expire_none _ hg) trivial

/-- A key that is gone comes back only through `update_admin_must_change`. -/
theorem gone_for_good_iff (store : SessionStore) (calls : ι → SessionCall k) (key : Key k.Value) (clock : Nat)
    (before after : List (Move ι Int)) (s s' : Sessions ι k)
    (hbefore : run (step (sessionNext store calls)) (Sessions.initial calls key clock) before = some s)
    (hgone : s.key.get = none) (hafter : run (step (sessionNext store calls)) s after = some s') :
    Throughout (step (sessionNext store calls)) (fun s => s.key.get = none) s after ↔
      Along (step (sessionNext store calls)) NoBlindSet s after := by
  have hs : s.Know := run_keeps (fun _ _ _ => session_step_know) hbefore (initial_know calls key clock)
  refine throughout_iff_along (I := Sessions.Know) ?_ hafter hs hgone
  intro s m s' hs hg h
  exact ⟨step_gone_iff hs hg h, fun _ => session_step_know hs h⟩

end

/-! ### An admin session that comes back -/

/-- A password change of the admin, and a logout in another tab. -/
def tabs : Bool → SessionCall (.browser .admin)
  | true => .browser (.updateAdminMustChange false)
  | false => .browser .deleteAdminWebSession

/-- The update has read the session and its TTL, and then the logout deletes the key. -/
def logoutAmidUpdate : List (Move Bool Int) := [.command true 101, .command true 101, .command false 101]

theorem logged_out_session_back :
    ∃ s, run (step (sessionNext raceStore tabs)) (Sessions.initial tabs raceKey 0) logoutAmidUpdate = some s ∧
      s.key.get = none ∧ ∃ s', run (step (sessionNext raceStore tabs)) s [.command true 101] = some s' ∧
      s'.key.get = some raceSession :=
  ⟨_, rfl, rfl, _, rfl, rfl⟩

/-- The two tabs, and a page that is loaded in a third one. -/
def withPage : Option Bool → SessionCall (.browser .admin)
  | some tab => tabs tab
  | none => .browser (.getAdminWebSession "Mozilla/5.0 (Windows NT 10.0)|ru")

/-- The page is loaded up to its EXEC when the update has ended and the logout comes. -/
def logoutAfterUpdate : List (Move (Option Bool) Int) :=
  [.command (some true) 101, .command (some true) 101, .command (some true) 101, .command none 101, .command none 101,
    .command none 101, .command (some false) 101]

theorem gone_for_good_after_update :
    ∃ s s', run (step (sessionNext raceStore withPage)) (Sessions.initial withPage raceKey 0) logoutAfterUpdate = some s ∧
      SessionKind.write _ (s.phase none) = some ⟨some 2, 28800⟩ ∧
      run (step (sessionNext raceStore withPage)) s [.tick 5, .command none 101] = some s' ∧
      Throughout (step (sessionNext raceStore withPage)) (fun s => s.key.get = none) s [.tick 5, .command none 101] := by
  obtain ⟨s, hs, hgone, hwrite, s', hs'⟩ : ∃ s, run (step (sessionNext raceStore withPage))
      (Sessions.initial withPage raceKey 0) logoutAfterUpdate = some s ∧ s.key.get = none ∧
      SessionKind.write _ (s.phase none) = some ⟨some 2, 28800⟩ ∧
      ∃ s', run (step (sessionNext raceStore withPage)) s [.tick 5, .command none 101] = some s' :=
    ⟨_, rfl, rfl, rfl, _, rfl⟩
  refine ⟨s, s', hs, hwrite, hs', ?_⟩
  apply (gone_for_good_iff raceStore withPage raceKey 0 logoutAfterUpdate _ s s' hs hgone hs').mpr
  refine along_cons.mpr ⟨trivial, fun s₁ htick => along_cons.mpr ⟨?_, fun _ _ => trivial⟩⟩
  cases htick
  intro w hw
  obtain rfl : _ = w := Option.some.inj (hwrite.symm.trans hw)
  exact Option.some_ne_none 2

/-! ## The absolute lifetime -/

section

/-- The key no longer exists at `limit`, if nobody calls again. -/
def GoneAt (limit : Nat) (s : Sessions ι k) : Prop :=
  ∀ ms, limit ≤ s.clock + ms → (s.key.expire (s.clock + ms)).get = none

/-- A SETEX that goes through ends by `limit`. -/
def WritesInTime (limit : Nat) (s : Sessions ι k) : Move ι Int → Prop
  | .command i _ => ∀ w ∈ k.write (s.phase i), w.GoesThrough s.key → s.clock + 1000 * w.ttl.toNat ≤ limit
  | .tick _ => True

/-- The call that `calls` says, on a session created at `t0` with TTL `T`. -/
def Sessions.created (calls : ι → SessionCall k) (t0 T : Nat) (v : k.Value) : Sessions ι k :=
  Sessions.initial calls ((⟨none, 0⟩ : Key k.Value).setex t0 T v) t0

/-- What is stored has not expired, or expires by `limit`. -/
structure Sessions.Live (limit : Nat) (s : Sessions ι k) : Prop where
  know : s.Know
  entry : ∀ v d, s.key.entry = some (v, d) → s.clock < d ∨ d ≤ limit

theorem goneAt_iff {limit : Nat} {s : Sessions ι k} (hs : s.Live limit) :
    GoneAt limit s ↔ ∀ v d, s.key.entry = some (v, d) → d ≤ limit := by
  unfold GoneAt
  simp only [get_expire_iff]
  constructor
  · intro h v d he
    rcases hs.entry v d he with hlt | hle
    · have := h (limit - s.clock) (by omega) v d he
      omega
    · exact hle
  · intro h ms hms v d he
    exact Nat.le_trans (h v d he) hms

variable [DecidableEq ι] {store : SessionStore} {calls : ι → SessionCall k}

theorem step_live {limit : Nat} {s s' : Sessions ι k} {m : Move ι Int} (hs : s.Live limit)
    (h : step (sessionNext store calls) s m = some s') : s'.Live limit := by
  refine ⟨session_step_know hs.know h, ?_⟩
  obtain ⟨i, now, rfl, he, hc⟩ | ⟨ms, rfl, hk, hc⟩ := session_step_cases hs.know h
  · rw [hc]
    cases he with
    | keep _ same => rw [same]; exact hs.entry
    | delete _ gone =>
      intro v d hv
      have hg : s'.key.get = none := by rw [gone, get_delete]
      rw [Key.get, hv] at hg
      cases hg
    | set w v pending _ after =>
      rw [after]
      rintro _ _ ⟨⟩
      have := (knows_write (hs.know i) pending).1
      left
      omega
  · rw [hk, hc]
    intro v d hv
    exact Or.inl (expire_entry hv).2

theorem step_goneAt_iff {limit : Nat} {s s' : Sessions ι k} {m : Move ι Int} (hs : s.Live limit)
    (hg : GoneAt limit s) (h : step (sessionNext store calls) s m = some s') :
    GoneAt limit s' ↔ WritesInTime limit s m := by
  rw [goneAt_iff (step_live hs h)]
  rw [goneAt_iff hs] at hg
  obtain ⟨i, now, rfl, he, hc⟩ | ⟨ms, rfl, hk, hc⟩ := session_step_cases hs.know h
  · cases he with
    | keep silent same =>
      rw [same]
      refine iff_of_true hg ?_
      intro w hw hthrough
      exact absurd hthrough (silent w hw)
    | delete silent gone =>
      refine iff_of_true ?_ ?_
      · intro v d hv
        have hnone : s'.key.get = none := by rw [gone, get_delete]
        rw [Key.get, hv] at hnone
        cases hnone
      · intro w hw
        rw [silent] at hw
        cases hw
    | set w v pending through after =>
      rw [after]
      constructor
      · intro hd u hu _
        rw [pending] at hu
        cases hu
        exact hd v _ rfl
      · rintro hw _ _ ⟨⟩
        exact hw w pending through
  · refine iff_of_true ?_ trivial
    intro v d hv
    rw [hk] at hv
    exact hg v d (expire_entry hv).1

theorem lifetime_iff (store : SessionStore) (calls : ι → SessionCall k) (t0 T : Nat) (v : k.Value)
    (moves : List (Move ι Int)) (s : Sessions ι k)
    (hrun : run (step (sessionNext store calls)) (Sessions.created calls t0 T v) moves = some s) :
    Throughout (step (sessionNext store calls)) (GoneAt (t0 + 1000 * T)) (Sessions.created calls t0 T v) moves ↔
      Along (step (sessionNext store calls)) (WritesInTime (t0 + 1000 * T)) (Sessions.created calls t0 T v) moves := by
  have hlive : (Sessions.created calls t0 T v).Live (t0 + 1000 * T) := by
    refine ⟨initial_know calls _ t0, ?_⟩
    rintro _ _ ⟨⟩
    exact Or.inr (Nat.le_refl _)
  refine throughout_iff_along ?_ hrun hlive ?_
  · intro s m s' hs hg h
    exact ⟨step_goneAt_iff hs hg h, fun _ => step_live hs h⟩
  · rw [goneAt_iff hlive]
    rintro _ _ ⟨⟩
    exact Nat.le_refl _

/-! ### What a refresh adds -/

/-- A SETEX sets the deadline that its TTL has found on by no more than half a second and the time since. -/
theorem writesInTime_of_ttl {limit : Nat} {s s₁ s₂ : Sessions ι k} {i : ι} {now now' : Int} {mid : List (Move ι Int)}
    (hs : s.Know) (hasked : step (sessionNext store calls) s (.command i now) = some s₁)
    (hrun : run (step (sessionNext store calls)) s₁ mid = some s₂) (hothers : ∀ now, .command i now ∉ mid)
    (hlimit : ∀ v d, s.key.entry = some (v, d) → d + 500 + (s₂.clock - s.clock) ≤ limit) :
    WritesInTime limit s₂ (.command i now') := by
  intro w hw _
  obtain ⟨hphase, hclock⟩ := run_others hrun hothers
  obtain ⟨j, input, key, phase, hj, hnext, rfl⟩ | ⟨ms, hj, _⟩ := KeyClients.step_cases hasked
  · cases hj
    have hsame : s₂.phase i = phase := hphase.trans (Function.update_self ..)
    rw [hsame] at hw
    obtain ⟨_, hknows, httl⟩ := sessionNext_effect (hs i) hnext
    have hpos := (knows_write hknows hw).1
    rw [httl w hw] at hpos ⊢
    obtain ⟨v, d, hentry, hle⟩ := ttl_le hpos
    have := hlimit v d hentry
    dsimp only at hclock
    omega
  · cases hj

end

/-! ### A refresh that rounds up -/

def portalSession : Payload WebFields :=
  ⟨some (raceDigest "Mozilla/5.0 (Windows NT 10.0)|ru"), some 0, ⟨"alice", "", [], []⟩⟩

def portalCalls : Unit → SessionCall (.browser .web)
  | () => .browser (.getWebSession "Mozilla/5.0 (Windows NT 10.0)|ru")

/-- A lookup `ms` milliseconds after a session was created with a TTL of 900 seconds. -/
def lookupAfter (ms : Nat) : List (Move Unit Int) :=
  [.tick ms, .command () 899, .command () 899, .command () 899, .command () 899]

/-- With 600 ms to go TTL answers 1, and the session lives on for a second. -/
theorem refresh_outlives :
    ∃ s, run (step (sessionNext raceStore portalCalls)) (Sessions.created portalCalls 0 900 portalSession)
        (lookupAfter 899400 ++ [.tick 700]) = some s ∧
      900000 < s.clock ∧ s.key.get = some { portalSession with lastSeenTs := some 899 } :=
  ⟨_, rfl, (by decide : 900000 < 0 + 899400 + 700), rfl⟩

theorem refresh_in_time :
    ∃ s, run (step (sessionNext raceStore portalCalls)) (Sessions.created portalCalls 0 900 portalSession)
        (lookupAfter 899000) = some s ∧
      Throughout (step (sessionNext raceStore portalCalls)) (GoneAt (0 + 1000 * 900))
        (Sessions.created portalCalls 0 900 portalSession) (lookupAfter 899000) := by
  refine ⟨_, rfl, ?_⟩
  apply (lifetime_iff raceStore portalCalls 0 900 portalSession (lookupAfter 899000) _ rfl).mpr
  refine ⟨trivial, ?_, ?_, ?_, ?_, trivial⟩
  · rintro w ⟨⟩
  · rintro w ⟨⟩
  · rintro w ⟨⟩
  · rintro w ⟨⟩ _
    decide

end RdpProxy.Store
