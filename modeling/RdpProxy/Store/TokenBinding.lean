import RdpProxy.Lib.KeyClients
import RdpProxy.Rdp.X224
import RdpProxy.Store.TokenKill

/-!
# The fingerprint that a token is bound to

With `token_fingerprint_enforce` on, the handlers of any number of relays check one token,
each a Redis command at a time, while others delete it and time passes.
-/

open RedisKey Steps KeyClients Words Text

namespace RdpProxy.Store

open Rdp

/-! ## The requests for one token -/

structure TokenAsk (token : List Char) where
  x224Request : Bytes
  asks : extractCookieToken x224Request = .ok token

variable {token : List Char} {C : Type}

section

variable (sha256 : Bytes → HexDigest)

def fingerprintDigest (fingerprint : String) : HexDigest := sha256 (utf8 fingerprint.toList)

def TokenAsk.clientFp (r : TokenAsk token) : String :=
  buildRdpClientFingerprint (fun b => (sha256 b).hex) r.x224Request token

/-- The handler of a connection, or one who deletes the token: a kill, or a handler at its end. -/
inductive Party (C : Type) where
  | handler (c : C)
  | deleter
  deriving DecidableEq

abbrev Binding (C : Type) := Shared (Party C) TokenPayload HandlerPhase

def checks (request : C → TokenAsk token) : Next (Party C) TokenPayload HandlerPhase Unit
  | .handler c, _, clock, key, phase =>
    Handler.next (fingerprintDigest sha256) clock key ⟨token, (request c).clientFp sha256, true, phase⟩
  | .deleter, _, _, key, phase => some (key.delete, phase)

end

/-- `create_session`, with nobody at work on the token yet. -/
def createSession (clock rdpTokenTtl : Nat) (payload : TokenPayload) : Binding C where
  key := (⟨none, 0⟩ : Key TokenPayload).setex clock rdpTokenTtl { payload with fingerprint := none }
  clock := clock
  phase _ := .resolving

/-! ## What one command of a check does -/

/-- The handler has found the token unbound, or it has passed the check. -/
def HandlerPhase.Holds : HandlerPhase → Prop
  | .resolving | .matching | .rejected => False
  | _ => True

def HandlerPhase.Passed : HandlerPhase → Prop
  | .starting | .relaying | .finished => True
  | _ => False

theorem HandlerPhase.Passed.holds {phase : HandlerPhase} (h : phase.Passed) : phase.Holds := by
  unfold HandlerPhase.Passed at h
  split at h
  · trivial
  · trivial
  · trivial
  · exact h.elim

/-- What is to be written binds the token to `d`. -/
def HandlerPhase.Writes (d : HexDigest) : HandlerPhase → Prop
  | .read _ payload | .storing _ _ payload => payload.fingerprint = some d
  | _ => True

def Unbound (key : Key TokenPayload) : Prop := ∃ p, key.get = some p ∧ p.fingerprint = none

def Bound (key : Key TokenPayload) (d : HexDigest) : Prop := ∃ p, key.get = some p ∧ p.fingerprint = some d

theorem Bound.unique {key : Key TokenPayload} {d d' : HexDigest} (h : Bound key d) (h' : Bound key d') :
    d = d' := by
  obtain ⟨p, hp, hd⟩ := h
  obtain ⟨q, hq, hd'⟩ := h'
  rw [hp] at hq
  cases hq
  rw [hd] at hd'
  exact Option.some.inj hd'

theorem Unbound.not_bound {key : Key TokenPayload} (h : Unbound key) (d : HexDigest) : ¬ Bound key d := by
  rintro ⟨q, hq, hd⟩
  obtain ⟨p, hp, hn⟩ := h
  rw [hp] at hq
  cases hq
  rw [hn] at hd
  cases hd

theorem Unbound.present {key : Key TokenPayload} (h : Unbound key) : key.get ≠ none := by
  obtain ⟨p, hp, _⟩ := h
  rw [hp]
  exact Option.some_ne_none p

theorem Bound.present {key : Key TokenPayload} {d : HexDigest} (h : Bound key d) : key.get ≠ none := by
  obtain ⟨p, hp, _⟩ := h
  rw [hp]
  exact Option.some_ne_none p

theorem not_bound_of_get {key : Key TokenPayload} (h : key.get = none) (d : HexDigest) : ¬ Bound key d :=
  fun hb => hb.present h

theorem tokenFingerprintMatches_bound {digest : String → HexDigest} {key : Key TokenPayload} {fp : String}
    (h : tokenFingerprintMatches digest key fp = true) : Bound key (digest fp) := by
  unfold tokenFingerprintMatches at h
  split at h
  · cases h
  · rename_i payload hg
    split at h
    · cases h
    · rename_i expected he
      exact ⟨payload, hg, by rw [he, of_decide_eq_true h]⟩

/-- The moves of a check. `d` is the digest of the handler's own fingerprint. -/
inductive CheckMove (d : HexDigest) (key : Key TokenPayload) (phase : HandlerPhase) (key' : Key TokenPayload)
    (phase' : HandlerPhase) : Prop where
  | leave (keep : key' = key) (before : ¬ phase.Holds) (after : ¬ phase'.Holds)
  | firstUse (keep : key' = key) (before : phase = .resolving) (unbound : Unbound key) (after : phase' = .watching)
  | sameFp (keep : key' = key) (before : phase = .matching) (bound : Bound key d) (after : phase' = .starting)
  | goOn (keep : key' = key) (before : phase.Holds) (after : phase'.Holds) (writes : phase'.Writes d)
  | bind (bound : Bound key' d) (before : phase.Holds) (after : phase' = .starting)

theorem check_move {digest : String → HexDigest} {clock : Nat} {key key' : Key TokenPayload} {fp : String}
    {phase phase' : HandlerPhase} (hw : phase.Writes (digest fp))
    (h : Handler.next digest clock key ⟨token, fp, true, phase⟩ = some (key', phase')) :
    CheckMove (digest fp) key phase key' phase' := by
  cases phase with
  | resolving =>
    simp only [Handler.next] at h
    split at h
    · cases h; exact .leave rfl id id
    · rename_i session hg
      rw [if_pos trivial] at h
      split at h <;> cases h
      · exact .leave rfl id id
      · rename_i hf
        exact .firstUse rfl rfl ⟨session, hg, hf⟩ rfl
  | matching =>
    simp only [Handler.next] at h
    split_ifs at h with hm <;> cases h
    · exact .sameFp rfl rfl (tokenFingerprintMatches_bound hm) rfl
    · exact .leave rfl id id
  | watching => cases h; exact .goOn rfl trivial trivial trivial
  | watched ver =>
    simp only [Handler.next] at h
    split at h <;> cases h
    · exact .goOn rfl trivial trivial trivial
    · exact .goOn rfl trivial trivial rfl
  | read ver payload =>
    simp only [Handler.next] at h
    split_ifs at h <;> cases h
    · exact .goOn rfl trivial trivial trivial
    · exact .goOn rfl trivial trivial hw
  | storing ver ttl payload =>
    simp only [Handler.next] at h
    split_ifs at h <;> cases h
    · exact .bind ⟨payload, rfl, hw⟩ trivial rfl
    · exact .goOn rfl trivial trivial trivial
  | starting | relaying | finished | rejected => cases h

theorem CheckMove.writes {d : HexDigest} {key key' : Key TokenPayload} {phase phase' : HandlerPhase}
    (h : CheckMove d key phase key' phase') : phase'.Writes d := by
  cases h with
  | leave _ _ ha =>
    unfold HandlerPhase.Holds at ha
    split at ha
    · trivial
    · trivial
    · trivial
    · exact absurd trivial ha
  | firstUse _ _ _ ha => rw [ha]; trivial
  | sameFp _ _ _ ha => rw [ha]; trivial
  | goOn _ _ _ hw => exact hw
  | bind _ _ ha => rw [ha]; trivial

theorem CheckMove.holds {d : HexDigest} {key key' : Key TokenPayload} {phase phase' : HandlerPhase}
    (h : CheckMove d key phase key' phase') (hh : phase.Holds) : phase'.Holds := by
  cases h with
  | leave _ hb _ => exact absurd hh hb
  | firstUse _ hb _ _ => rw [hb] at hh; exact hh.elim
  | sameFp _ hb _ _ => rw [hb] at hh; exact hh.elim
  | goOn _ _ ha _ => exact ha
  | bind _ _ ha => rw [ha]; trivial

theorem CheckMove.key_eq {d : HexDigest} {key key' : Key TokenPayload} {phase phase' : HandlerPhase}
    (h : CheckMove d key phase key' phase') : key' = key ∨ phase.Holds ∧ Bound key' d := by
  cases h with
  | leave hk _ _ => exact Or.inl hk
  | firstUse hk _ _ _ => exact Or.inl hk
  | sameFp hk _ _ _ => exact Or.inl hk
  | goOn hk _ _ _ => exact Or.inl hk
  | bind hb hh _ => exact Or.inr ⟨hh, hb⟩

theorem CheckMove.holds_from {d : HexDigest} {key key' : Key TokenPayload} {phase phase' : HandlerPhase}
    (h : CheckMove d key phase key' phase') (hh : phase'.Holds) :
    (phase = .resolving ∧ Unbound key) ∨ Bound key d ∨ phase.Holds := by
  cases h with
  | leave _ _ ha => exact absurd hh ha
  | firstUse _ hb hu _ => exact Or.inl ⟨hb, hu⟩
  | sameFp _ _ hb _ => exact Or.inr (Or.inl hb)
  | goOn _ hb _ _ => exact Or.inr (Or.inr hb)
  | bind _ hb _ => exact Or.inr (Or.inr hb)

/-! ## First uses -/

section

variable (sha256 : Bytes → HexDigest) (request : C → TokenAsk token)

/-- A handler whose `get_session` finds the token unbound presents the fingerprint of every
other handler that has found it so, or has passed. -/
def FirstUsesAgree (s : Binding C) : Move (Party C) Unit → Prop
  | .command (.handler c) _ => s.phase (.handler c) = .resolving → Unbound s.key →
    ∀ c', (s.phase (.handler c')).Holds → (request c').clientFp sha256 = (request c).clientFp sha256
  | _ => True

/-- From `s` on to `s'`: whoever has passed presented one fingerprint, and it is the one that
the token was bound to, and still is where the token is still there. -/
def OnlyFirstAdmitted (s s' : Binding C) : Prop :=
  (∀ c c', (s'.phase (.handler c)).Passed → (s'.phase (.handler c')).Passed →
    (request c).clientFp sha256 = (request c').clientFp sha256) ∧
  ∀ d, Bound s.key d → (∀ d', Bound s'.key d' → d' = d) ∧
    ∀ c, (s'.phase (.handler c)).Passed → fingerprintDigest sha256 ((request c).clientFp sha256) = d

def WritesOwn (s : Binding C) : Prop :=
  ∀ c, (s.phase (.handler c)).Writes (fingerprintDigest sha256 ((request c).clientFp sha256))

structure OneHolder (s : Binding C) : Prop where
  writes : WritesOwn sha256 request s
  agree : ∀ c c', (s.phase (.handler c)).Holds → (s.phase (.handler c')).Holds →
    (request c).clientFp sha256 = (request c').clientFp sha256
  bound : ∀ c d, (s.phase (.handler c)).Holds → Bound s.key d →
    fingerprintDigest sha256 ((request c).clientFp sha256) = d

/-- Once the token is bound to `d`: it is bound to nothing else, and nobody else passes. -/
structure BoundOnce (d : HexDigest) (s : Binding C) : Prop where
  writes : WritesOwn sha256 request s
  key : s.key.get = none ∨ Bound s.key d
  holders : ∀ c, (s.phase (.handler c)).Holds → fingerprintDigest sha256 ((request c).clientFp sha256) = d

theorem createSession_oneHolder (clock rdpTokenTtl : Nat) (payload : TokenPayload) :
    OneHolder sha256 request (createSession clock rdpTokenTtl payload) :=
  ⟨fun _ => trivial, fun _ _ h => h.elim, fun _ _ h => h.elim⟩

end

section

variable [DecidableEq C] {sha256 : Bytes → HexDigest} {request : C → TokenAsk token} {s s' : Binding C}
  {m : Move (Party C) Unit}

theorem binding_step_cases
    (hw : WritesOwn sha256 request s)
    (h : step (checks sha256 request) s m = some s') :
    (∃ c key phase, m = .command (.handler c) () ∧
      CheckMove (fingerprintDigest sha256 ((request c).clientFp sha256)) s.key (s.phase (.handler c)) key phase ∧
      s' = { s with key := key, phase := Function.update s.phase (.handler c) phase }) ∨
    s'.phase = s.phase ∧ (s'.key.get = none ∨ s'.key = s.key) := by
  obtain ⟨i, input, key, phase, rfl, hn, rfl⟩ | ⟨ms, rfl, rfl⟩ := step_cases h
  · cases i with
    | handler c => exact Or.inl ⟨c, key, phase, rfl, check_move (hw c) hn, rfl⟩
    | deleter =>
      cases hn
      exact Or.inr ⟨Function.update_eq_self .., Or.inl (get_delete _)⟩
  · exact Or.inr ⟨rfl, get_expire _ _⟩

theorem phase_update {c c' : C} {phase : HandlerPhase} :
    Function.update s.phase (.handler c) phase (.handler c') = if c' = c then phase else s.phase (.handler c') := by
  by_cases hc : c' = c
  · rw [if_pos hc, hc, Function.update_self]
  · rw [if_neg hc, Function.update_of_ne (by simpa using hc)]

theorem step_writes
    (hw : WritesOwn sha256 request s)
    (h : step (checks sha256 request) s m = some s') : WritesOwn sha256 request s' := by
  intro c
  obtain ⟨c₀, key, phase, rfl, hmove, rfl⟩ | ⟨hp, _⟩ := binding_step_cases hw h
  · simp only [phase_update]
    split_ifs with hc
    · rw [hc]; exact hmove.writes
    · exact hw c
  · rw [hp]; exact hw c

/-- The step lemma: the holders go on presenting one fingerprint, which the key is bound to. -/
theorem step_oneHolder
    (hsha : ∀ c c', fingerprintDigest sha256 ((request c).clientFp sha256) =
      fingerprintDigest sha256 ((request c').clientFp sha256) →
      (request c).clientFp sha256 = (request c').clientFp sha256)
    (s : Binding C) (m : Move (Party C) Unit) (s' : Binding C) (hi : OneHolder sha256 request s)
    (hg : FirstUsesAgree sha256 request s m) (h : step (checks sha256 request) s m = some s') :
    OneHolder sha256 request s' := by
  have hwrites := step_writes hi.writes h
  obtain ⟨c, key, phase, rfl, hmove, rfl⟩ | ⟨hp, hk⟩ := binding_step_cases hi.writes h
  · have hagree : ∀ c', (s.phase (.handler c')).Holds → phase.Holds →
        (request c').clientFp sha256 = (request c).clientFp sha256 := by
      intro c' hc' hph
      rcases hmove.holds_from hph with ⟨hb, hu⟩ | hb | hb
      · exact hg hb hu c' hc'
      · exact hsha c' c (hi.bound c' _ hc' hb)
      · exact hi.agree c' c hc' hb
    refine ⟨hwrites, ?_, ?_⟩
    · intro a b ha hb
      simp only [phase_update] at ha hb
      split_ifs at ha hb with h₁ h₂ h₂
      · rw [h₁, h₂]
      · rw [h₁]; exact (hagree b hb ha).symm
      · rw [h₂]; exact hagree a ha hb
      · exact hi.agree a b ha hb
    · intro c' d hc' hd
      simp only [phase_update] at hc'
      split_ifs at hc' with he
      · subst he
        rcases hmove.key_eq with rfl | ⟨_, hb⟩
        · rcases hmove.holds_from hc' with ⟨_, hu⟩ | hb | hb
          · exact absurd hd (hu.not_bound d)
          · exact hb.unique hd
          · exact hi.bound c' d hb hd
        · exact hb.unique hd
      · rcases hmove.key_eq with rfl | ⟨hh, hb⟩
        · exact hi.bound c' d hc' hd
        · rw [hi.agree c' c hc' hh]; exact hb.unique hd
  · refine ⟨hwrites, ?_, ?_⟩
    · intro a b ha hb
      rw [hp] at ha hb
      exact hi.agree a b ha hb
    · intro c' d hc' hd
      rw [hp] at hc'
      rcases hk with hk | hk
      · exact absurd hd (not_bound_of_get hk d)
      · rw [hk] at hd; exact hi.bound c' d hc' hd

theorem step_boundOnce {d : HexDigest} (s : Binding C) (m : Move (Party C) Unit) (s' : Binding C)
    (hi : BoundOnce sha256 request d s) (h : step (checks sha256 request) s m = some s') :
    BoundOnce sha256 request d s' := by
  have hwrites := step_writes hi.writes h
  obtain ⟨c, key, phase, rfl, hmove, rfl⟩ | ⟨hp, hk⟩ := binding_step_cases hi.writes h
  · refine ⟨hwrites, ?_, ?_⟩
    · rcases hmove.key_eq with rfl | ⟨hh, hb⟩
      · exact hi.key
      · rw [← hi.holders c hh]; exact Or.inr hb
    · intro c' hc'
      simp only [phase_update] at hc'
      split_ifs at hc' with he
      · subst he
        rcases hmove.holds_from hc' with ⟨_, hu⟩ | hb | hb
        · exact absurd (hi.key.resolve_left hu.present) (hu.not_bound d)
        · exact hb.unique (hi.key.resolve_left hb.present)
        · exact hi.holders c' hb
      · exact hi.holders c' hc'
  · refine ⟨hwrites, ?_, ?_⟩
    · rcases hk with hk | hk
      · exact Or.inl hk
      · rw [hk]; exact hi.key
    · intro c' hc'
      rw [hp] at hc'
      exact hi.holders c' hc'

theorem step_holds {c : C} (s : Binding C) (m : Move (Party C) Unit) (s' : Binding C)
    (hi : WritesOwn sha256 request s ∧
      (s.phase (.handler c)).Holds)
    (h : step (checks sha256 request) s m = some s') :
    WritesOwn sha256 request s' ∧
      (s'.phase (.handler c)).Holds := by
  refine ⟨step_writes hi.1 h, ?_⟩
  obtain ⟨c₀, key, phase, rfl, hmove, rfl⟩ | ⟨hp, _⟩ := binding_step_cases hi.1 h
  · simp only [phase_update]
    split_ifs with hc
    · subst hc; exact hmove.holds hi.2
    · exact hi.2
  · rw [hp]; exact hi.2

theorem disagreeing_holders
    (hno : ¬ FirstUsesAgree sha256 request s m) (h : step (checks sha256 request) s m = some s') :
    ∃ c c', (s'.phase (.handler c)).Holds ∧ (s'.phase (.handler c')).Holds ∧
      (request c).clientFp sha256 ≠ (request c').clientFp sha256 := by
  cases m with
  | tick ms => exact absurd trivial hno
  | command p input =>
    cases p with
    | deleter => exact absurd trivial hno
    | handler c =>
      unfold FirstUsesAgree at hno
      push Not at hno
      obtain ⟨hr, ⟨p, hp, hf⟩, c', hc', hne⟩ := hno
      have hcc : c' ≠ c := by
        rintro rfl
        rw [hr] at hc'
        exact hc'.elim
      have hs : step (checks sha256 request) s (.command (.handler c) input) =
          some { s with phase := Function.update s.phase (.handler c) .watching } := by
        simp [step, checks, hr, Handler.next, hp, hf]
      rw [hs] at h
      cases h
      refine ⟨c', c, ?_, ?_, hne⟩
      · simpa only [phase_update, if_neg hcc] using hc'
      · simp [HandlerPhase.Holds]

/-! ## The guarantee of the binding -/

theorem only_first_admitted_iff
    (hsha : ∀ c c', fingerprintDigest sha256 ((request c).clientFp sha256) =
      fingerprintDigest sha256 ((request c').clientFp sha256) →
      (request c).clientFp sha256 = (request c').clientFp sha256)
    (clock rdpTokenTtl : Nat) (payload : TokenPayload) (moves moves' : List (Move (Party C) Unit))
    (s s' : Binding C) (hrun : run (step (checks sha256 request)) (createSession clock rdpTokenTtl payload) moves = some s)
    (hrun' : run (step (checks sha256 request)) s moves' = some s') :
    (Along (step (checks sha256 request)) (FirstUsesAgree sha256 request)
      (createSession clock rdpTokenTtl payload) (moves ++ moves') → OnlyFirstAdmitted sha256 request s s') ∧
    ((∀ c, (s'.phase (.handler c)).Holds → (s'.phase (.handler c)).Passed) →
      OnlyFirstAdmitted sha256 request s s' → Along (step (checks sha256 request)) (FirstUsesAgree sha256 request)
        (createSession clock rdpTokenTtl payload) (moves ++ moves')) := by
  have hall := run_append_eq_some.mpr ⟨s, hrun, hrun'⟩
  have hstart : OneHolder sha256 request (createSession clock rdpTokenTtl payload) :=
    createSession_oneHolder sha256 request clock rdpTokenTtl payload
  constructor
  · intro hagree
    have h' := run_inv (step_oneHolder hsha) hall hagree hstart
    have h := run_inv (step_oneHolder hsha) hrun hagree.of_append hstart
    refine ⟨fun c c' hc hc' => h'.agree c c' hc.holds hc'.holds, ?_⟩
    intro d hd
    have honce : BoundOnce sha256 request d s := ⟨h.writes, Or.inr hd, fun c hc => h.bound c d hc hd⟩
    have honce' := run_keeps step_boundOnce hrun' honce
    refine ⟨?_, fun c hc => honce'.holders c hc.holds⟩
    intro d' hd'
    exact hd'.unique (honce'.key.resolve_left hd'.present)
  · intro hdone honly
    by_contra hnot
    obtain ⟨pre, m, post, s₁, hsplit, hpre, hno⟩ := exists_of_not_along hnot
    rw [hsplit] at hall
    obtain ⟨s₁', h₁, hrest⟩ := run_append_eq_some.mp hall
    rw [hpre] at h₁
    cases h₁
    obtain ⟨s₂, hm, hpost⟩ := run_cons_eq_some.mp hrest
    have hw₁ := run_keeps (fun _ _ _ hw h => step_writes hw h) hpre hstart.writes
    obtain ⟨c, c', hc, hc', hne⟩ := disagreeing_holders hno hm
    have hw₂ := step_writes hw₁ hm
    have hend := (run_keeps step_holds hpost ⟨hw₂, hc⟩).2
    have hend' := (run_keeps step_holds hpost ⟨hw₂, hc'⟩).2
    exact hne (honly.1 c c' (hdone c hend) (hdone c' hend'))

end

/-! ## Two first uses -/

def sampleToken : List Char := "q3Jx-8mZt2Vb_0aLkP5sYw7RnCeUdH1fGgTi9oXyB4E".toList

/-- A request that differs from the other client's in its requested protocols. -/
def sampleRequest (protocols : UInt8) (token : Bytes) : Bytes :=
  [72, 0xE0, 0, 0, 0, 0, 0] ++ msts ++ token ++ crlf ++ [1, 0, 8, 0, protocols, 0, 0, 0]

/-- SHA-256 of the two requests without their token and of the two fingerprints. -/
def sampleSha256 (b : Bytes) : HexDigest :=
  if b = sampleRequest 3 (ascii "<TOKEN>") then
    ⟨"642fe434fc41ead39860b7c527f043c3d6f86cb414a53da9d51b4c9c725f9e46", by decide⟩
  else if b = sampleRequest 11 (ascii "<TOKEN>") then
    ⟨"ebeccc64aeb2c00b9889b0d4316f958b1899321e5f5a1efdf1a210a4cd7231d9", by decide⟩
  else if b = ascii "|642fe434fc41ead39860b7c527f043c3d6f86cb414a53da9d51b4c9c725f9e46" then
    ⟨"3119b1f13438dc033d67f4222c39ae3ea18f6dc453dcb3e2f5031afc67112979", by decide⟩
  else ⟨"7707c82ed9fad4fa0d0097f450d565c6a3b793fe9b84fac62822d1a996da51a9", by decide⟩

def sampleAsk : Bool → TokenAsk sampleToken
  | true => ⟨sampleRequest 3 (utf8 sampleToken), by decide +kernel⟩
  | false => ⟨sampleRequest 11 (utf8 sampleToken), by decide +kernel⟩

def sampleSession : TokenPayload := ⟨"alice", "", "10.0.0.5", 3389, none, none, none⟩

def checkBy (c : Bool) : Move (Party Bool) Unit := .command (.handler c) ()

/-- Both handlers find the token unbound, and then one after the other binds it. -/
def twoFirstUses : List (Move (Party Bool) Unit) :=
  [checkBy true, checkBy false, checkBy true, checkBy true, checkBy true, checkBy true]

theorem sample_clientFp : (sampleAsk true).clientFp sampleSha256 ≠ (sampleAsk false).clientFp sampleSha256 := by
  decide +kernel

theorem second_first_use_admitted :
    ∃ s s', run (step (checks sampleSha256 sampleAsk)) (createSession 0 300 sampleSession) twoFirstUses = some s ∧
      run (step (checks sampleSha256 sampleAsk)) s
        [checkBy false, checkBy false, checkBy false, checkBy false] = some s' ∧
      ¬ OnlyFirstAdmitted sampleSha256 sampleAsk s s' := by
  refine ⟨_, _, rfl, rfl, ?_⟩
  rintro ⟨hone, _⟩
  exact sample_clientFp (hone true false trivial trivial)

/-- One handler binds the token before the other looks at it, and the other is turned away. -/
def oneFirstUse : List (Move (Party Bool) Unit) :=
  [checkBy true, checkBy true, checkBy true, checkBy true, checkBy true]

theorem only_first_admitted_in_turn :
    ∃ s s', run (step (checks sampleSha256 sampleAsk)) (createSession 0 300 sampleSession) oneFirstUse = some s ∧
      run (step (checks sampleSha256 sampleAsk)) s [checkBy false, checkBy false] = some s' ∧
      OnlyFirstAdmitted sampleSha256 sampleAsk s s' := by
  refine ⟨_, _, rfl, rfl, ?_⟩
  apply (only_first_admitted_iff (by decide +kernel) 0 300 sampleSession oneFirstUse
    [checkBy false, checkBy false] _ _ rfl rfl).1
  refine ⟨?_, ?_, ?_, ?_, ?_, ?_, ?_, trivial⟩
  · rintro _ _ (_ | _) hc
    · exact hc.elim
    · exact hc.elim
  · intro h; cases h
  · intro h; cases h
  · intro h; cases h
  · intro h; cases h
  · rintro _ ⟨p, hp, hf⟩
    cases hp
    cases hf
  · intro h; cases h

end RdpProxy.Store
