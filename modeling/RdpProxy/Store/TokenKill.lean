import RdpProxy.Lib.Steps
import RdpProxy.Store.Payload

/-!
# The life of an RDP token: portal, relay and admin kill

`create_session`, the token part of `RdpConnectionHandler.__call__`, `kill_session` and
`kill_all_sessions`, interleaved one Redis command at a time. The kill flag and the
active key of a connection are other keys and are left out.
-/

open RedisKey Steps

namespace RdpProxy.Store

structure TokenPayload where
  username : String
  passwordEnc : String
  targetHost : String
  targetPort : Int
  fingerprint : Option HexDigest
  serverId : Option String
  serverDisplay : Option String
  deriving DecidableEq

/-! ## The handler of one connection -/

/-- Each phase names the next command. From `watching` to `storing` the handler is in
`set_token_fingerprint`. -/
inductive HandlerPhase where
  | resolving
  | matching
  | watching
  | watched (ver : Nat)
  | read (ver : Nat) (payload : TokenPayload)
  | storing (ver : Nat) (ttl : Int) (payload : TokenPayload)
  | starting
  | relaying
  | finished
  | rejected

/-- `fp_enforce`, the request's `build_rdp_client_fingerprint` and the progress of a handler. -/
structure Handler (T : Type) where
  token : T
  clientFp : String
  fpEnforce : Bool
  phase : HandlerPhase

def tokenFingerprintMatches (digest : String → HexDigest) (key : Key TokenPayload) (fp : String) : Bool :=
  match key.get with
  | none => false
  | some payload =>
    match payload.fingerprint with
    | none => false
    | some expected => expected = digest fp

/-- The commands of a handler on its token key, up to `tracker.start`. -/
def Handler.next {T : Type} (digest : String → HexDigest) (clock : Nat) (key : Key TokenPayload)
    (h : Handler T) : Option (Key TokenPayload × HandlerPhase) :=
  match h.phase with
  | .resolving =>
    match key.get with
    | none => some (key, .rejected)
    | some session =>
      if h.fpEnforce then
        match session.fingerprint with
        | some _ => some (key, .matching)
        | none => some (key, .watching)
      else some (key, .starting)
  | .matching =>
    if tokenFingerprintMatches digest key h.clientFp then some (key, .starting) else some (key, .rejected)
  | .watching => some (key, .watched key.version)
  | .watched ver =>
    match key.get with
    -- `return False`, which the handler does not look at.
    | none => some (key, .starting)
    | some payload => some (key, .read ver { payload with fingerprint := some (digest h.clientFp) })
  | .read ver payload =>
    let ttl := key.ttl clock
    if ttl ≤ 0 then some (key, .starting) else some (key, .storing ver ttl payload)
  | .storing ver ttl payload =>
    if key.version = ver then some (key.setex clock ttl.toNat payload, .starting)
    else some (key, .watching)
  | .starting | .relaying | .finished | .rejected => none

/-! ## What a handler knows of its token -/

variable {T : Type}

/-- What a handler has learnt about its token: it was minted, and from the GET of
`set_token_fingerprint` to its EXEC the key has not gone unless WATCH can tell. -/
def Handler.Ok (h : Handler T) (key : Key TokenPayload) (minted : Bool) : Prop :=
  match h.phase with
  | .resolving | .rejected => True
  | .watched ver => minted = true ∧ ver ≤ key.version
  | .read ver _ => minted = true ∧ Guarded ver key
  | .storing ver _ _ => minted = true ∧ Guarded ver key
  | _ => minted = true

theorem Handler.Ok.later {h : Handler T} {key key' : Key TokenPayload} {m m' : Bool} (ho : h.Ok key m)
    (hl : Later key key') (hm : m = true → m' = true) : h.Ok key' m' := by
  obtain ⟨t, fp, enforce, phase⟩ := h
  cases phase with
  | resolving | rejected => trivial
  | watched ver => exact ⟨hm ho.1, Nat.le_trans ho.2 hl.version_le⟩
  | read ver p => exact ⟨hm ho.1, ho.2.later hl⟩
  | storing ver ttl p => exact ⟨hm ho.1, ho.2.later hl⟩
  | matching | watching | starting | relaying | finished => exact hm ho

theorem next_spec {h : Handler T} {digest : String → HexDigest} {clock : Nat}
    {key key' : Key TokenPayload} {phase : HandlerPhase} {m : Bool} (ho : h.Ok key m)
    (hm : key.get ≠ none → m = true) (hn : h.next digest clock key = some (key', phase)) :
    Later key key' ∧ (key.get = none → key'.get = none) ∧ { h with phase := phase }.Ok key' m ∧
      phase ≠ .relaying ∧ h.phase ≠ .relaying := by
  obtain ⟨t, fp, enforce, ph⟩ := h
  cases ph with
  | resolving =>
    simp only [Handler.next] at hn
    split at hn
    · cases hn
      exact ⟨later_refl _, id, trivial, by simp, by simp⟩
    · rename_i hg
      have hmint : m = true := hm (by simp [hg])
      split_ifs at hn
      · split at hn <;> cases hn <;> exact ⟨later_refl _, id, hmint, by simp, by simp⟩
      · cases hn
        exact ⟨later_refl _, id, hmint, by simp, by simp⟩
  | matching =>
    simp only [Handler.next] at hn
    split_ifs at hn <;> cases hn
    · exact ⟨later_refl _, id, ho, by simp, by simp⟩
    · exact ⟨later_refl _, id, trivial, by simp, by simp⟩
  | watching =>
    cases hn
    exact ⟨later_refl _, id, ⟨ho, Nat.le_refl _⟩, by simp, by simp⟩
  | watched ver =>
    simp only [Handler.next] at hn
    split at hn
    · cases hn
      exact ⟨later_refl _, id, ho.1, by simp, by simp⟩
    · rename_i hg
      cases hn
      exact ⟨later_refl _, id, ⟨ho.1, ho.2, fun _ => by simp [hg]⟩, by simp, by simp⟩
  | read ver p =>
    simp only [Handler.next] at hn
    split_ifs at hn <;> cases hn
    · exact ⟨later_refl _, id, ho.1, by simp, by simp⟩
    · exact ⟨later_refl _, id, ho, by simp, by simp⟩
  | storing ver ttl p =>
    simp only [Handler.next] at hn
    split_ifs at hn with hv <;> cases hn
    · -- EXEC went through, so the key still holds what the GET before it read.
      exact ⟨setex_later .., fun h => absurd h (ho.2.2 hv), ho.1, by simp, by simp⟩
    · exact ⟨later_refl _, id, ho.1, by simp, by simp⟩
  | starting | relaying | finished | rejected => cases hn

/-! ## All parties -/

/-- A kill of one connection after its GET of the mapping. `covered` is the token of the
connection, where the connection had stored its mapping and was still open at that GET. -/
inductive KillPhase (T C : Type) where
  | idle
  | deletingToken (c : C) (rawToken : T) (covered : Option T)
  | deletingMapping (c : C) (covered : Option T)
  | committing (c : C) (covered : Option T)
  | completed

structure World (T C K : Type) where
  clock : Nat
  /-- `rdp:token:{token}` -/
  token : T → Key TokenPayload
  /-- `rdp:conn-token:{connection_id}` -/
  mapping : C → Key T
  minted : T → Bool
  handler : C → Option (Handler T)
  kill : K → KillPhase T C
  /-- Tokens of the connections that were open when a kill of them completed. -/
  revoked : T → Bool

variable {C K : Type}

def World.initial : World T C K where
  clock := 0
  token _ := ⟨none, 0⟩
  mapping _ := ⟨none, 0⟩
  minted _ := false
  handler _ := none
  kill _ := .idle
  revoked _ := false

/-- The token of a connection that has stored its mapping and has not finished. -/
def World.openToken (w : World T C K) (c : C) : Option T :=
  match w.handler c with
  | some h => match h.phase with
    | .relaying => some h.token
    | _ => none
  | none => none

inductive Act (T C K : Type) where
  | createSession (t : T) (payload : TokenPayload) (rdpTokenTtl : Nat)
  | connect (c : C) (t : T) (clientFp : String) (fpEnforce : Bool)
  | handle (c : C)
  | storeMapping (c : C)
  | finish (c : C) (finalized : Bool)
  | deleteSession (t : T)
  | killRead (k : K) (c : C)
  | killNext (k : K)
  | tick (ms : Nat)

/-- The two configured values of a relay that matter here: `config.redis.rdp_token_ttl`
from YAML, and the digest of the session store. -/
structure RelayConfig where
  yamlTokenTtl : Int
  digest : String → HexDigest

section

variable [DecidableEq T] [DecidableEq C] [DecidableEq K]

def World.revoke (w : World T C K) (c : C) : T → Bool :=
  match w.openToken c with
  | some t => Function.update w.revoked t true
  | none => w.revoked

def World.step (cfg : RelayConfig) (w : World T C K) : Act T C K → Option (World T C K)
  | .createSession t payload ttl =>
    if w.minted t = false ∧ 0 < ttl then
      some { w with token := Function.update w.token t ((w.token t).setex w.clock ttl payload)
                    minted := Function.update w.minted t true }
    else none
  | .connect c t fp enforce =>
    match w.handler c with
    | none => some { w with handler := Function.update w.handler c (some ⟨t, fp, enforce, .resolving⟩) }
    | some _ => none
  | .handle c =>
    match w.handler c with
    | none => none
    | some h =>
      match h.next cfg.digest w.clock (w.token h.token) with
      | none => none
      | some (key, phase) =>
        some { w with token := Function.update w.token h.token key
                      handler := Function.update w.handler c (some { h with phase := phase }) }
  | .storeMapping c =>
    match w.handler c with
    | some ⟨t, fp, enforce, .starting⟩ =>
      -- SETEX refuses a TTL below one second, and the handler's `except` ends the session.
      if 0 < cfg.yamlTokenTtl then
        some { w with mapping := Function.update w.mapping c
                        ((w.mapping c).setex w.clock cfg.yamlTokenTtl.toNat t)
                      handler := Function.update w.handler c (some ⟨t, fp, enforce, .relaying⟩) }
      else some { w with handler := Function.update w.handler c (some ⟨t, fp, enforce, .rejected⟩) }
    | _ => none
  | .finish c finalized =>
    match w.handler c with
    | some ⟨t, fp, enforce, .relaying⟩ =>
      -- Where `tracker.finish` raises again in the `except` branch, the mapping stays.
      some { w with mapping := Function.update w.mapping c (if finalized then (w.mapping c).delete else w.mapping c)
                    handler := Function.update w.handler c (some ⟨t, fp, enforce, .finished⟩) }
    | _ => none
  | .deleteSession t => some { w with token := Function.update w.token t (w.token t).delete }
  | .killRead k c =>
    match w.kill k with
    | .idle =>
      match (w.mapping c).get with
      | none => some { w with kill := Function.update w.kill k (.committing c (w.openToken c)) }
      | some t => some { w with kill := Function.update w.kill k (.deletingToken c t (w.openToken c)) }
    | _ => none
  | .killNext k =>
    match w.kill k with
    | .deletingToken c t covered =>
      some { w with token := Function.update w.token t (w.token t).delete
                    kill := Function.update w.kill k (.deletingMapping c covered) }
    | .deletingMapping c covered =>
      some { w with mapping := Function.update w.mapping c (w.mapping c).delete
                    kill := Function.update w.kill k (.committing c covered) }
    | .committing c _ =>
      some { w with kill := Function.update w.kill k .completed
                    revoked := w.revoke c }
    | _ => none
  | .tick ms =>
    some { w with clock := w.clock + ms
                  token := fun t => (w.token t).expire (w.clock + ms)
                  mapping := fun c => (w.mapping c).expire (w.clock + ms) }

end

/-! ## What every run keeps -/

structure World.Wf (w : World T C K) : Prop where
  minted : ∀ t, (w.token t).get ≠ none → w.minted t = true
  handlers : ∀ c h, w.handler c = some h → h.Ok (w.token h.token) (w.minted h.token)
  mapped : ∀ c raw t, (w.mapping c).get = some raw → w.openToken c = some t → raw = t

/-- How the token keys move: never back, and never from absent to present once minted. -/
structure World.Keeps (w w' : World T C K) : Prop where
  later : ∀ t, Later (w.token t) (w'.token t)
  minted : ∀ t, w.minted t = true → w'.minted t = true
  gone : ∀ t, w.minted t = true → (w.token t).get = none → (w'.token t).get = none
  fresh : ∀ t, (w.token t).get = none → (w'.token t).get ≠ none → w'.minted t = true

theorem World.Keeps.of_eq {w w' : World T C K} (ht : w'.token = w.token) (hm : w'.minted = w.minted) :
    w.Keeps w' := by
  refine ⟨?_, ?_, ?_, ?_⟩
  · intro t; rw [ht]; exact later_refl _
  · intro t h; rw [hm]; exact h
  · intro t _ h; rw [ht]; exact h
  · intro t h h'; rw [ht] at h'; exact absurd h h'

theorem World.Keeps.of_update [DecidableEq T] {w w' : World T C K} {t : T} {key : Key TokenPayload}
    (ht : w'.token = Function.update w.token t key) (hm : w'.minted = w.minted)
    (hl : Later (w.token t) key) (hg : (w.token t).get = none → key.get = none) : w.Keeps w' := by
  have hgone : ∀ u, (w.token u).get = none → (w'.token u).get = none := by
    intro u h
    by_cases hu : u = t
    · subst hu; rw [ht, Function.update_self]; exact hg h
    · rw [ht, Function.update_of_ne hu]; exact h
  refine ⟨?_, ?_, fun u _ h => hgone u h, fun u h h' => absurd (hgone u h) h'⟩
  · intro u
    by_cases hu : u = t
    · subst hu; rw [ht, Function.update_self]; exact hl
    · rw [ht, Function.update_of_ne hu]; exact later_refl _
  · intro u h; rw [hm]; exact h

theorem World.Keeps.handler_ok {w w' : World T C K} (hw : w.Wf) (hk : w.Keeps w') {c : C} {hd : Handler T}
    (hc : w.handler c = some hd) : hd.Ok (w'.token hd.token) (w'.minted hd.token) :=
  (hw.handlers c hd hc).later (hk.later _) (hk.minted _)

theorem openToken_minted {w : World T C K} (hw : w.Wf) {c : C} {t : T} (h : w.openToken c = some t) :
    w.minted t = true := by
  unfold World.openToken at h
  split at h
  · rename_i hd hc
    have ho := hw.handlers c hd hc
    split at h
    · rename_i hp
      cases h
      simpa [Handler.Ok, hp] using ho
    · cases h
  · cases h

theorem openToken_relaying {w : World T C K} {c : C} {hd : Handler T} (hc : w.handler c = some hd)
    (hp : hd.phase = .relaying) : w.openToken c = some hd.token := by
  simp [World.openToken, hc, hp]

theorem openToken_of_handler {w : World T C K} {c : C} {hd : Handler T} (hc : w.handler c = some hd)
    (hp : hd.phase ≠ .relaying) : w.openToken c = none := by
  obtain ⟨t, fp, enforce, phase⟩ := hd
  cases phase <;> simp_all [World.openToken]

/-! ## Kills that find the mapping -/

/-- When a kill reads the mapping of an open connection, the mapping is still there or the
token is already gone. A connection that is open when the kill completes was so at that read. -/
def KillSeesMapping (w : World T C K) : Act T C K → Prop
  | .killRead _ c => match w.openToken c with
    | none => True
    | some t => (w.mapping c).get.isSome ∨ (w.token t).get.isNone
  | .killNext k => match w.kill k with
    | .committing c covered => w.openToken c = none ∨ w.openToken c = covered
    | _ => True
  | _ => True

instance [DecidableEq T] (w : World T C K) (a : Act T C K) : Decidable (KillSeesMapping w a) := by
  unfold KillSeesMapping
  split
  · split <;> infer_instance
  · split <;> infer_instance
  · infer_instance

/-- The token was minted and is gone, so it stays gone. -/
def World.Dead (w : World T C K) (t : T) : Prop := w.minted t = true ∧ (w.token t).get = none

def KillPhase.Safe (w : World T C K) : KillPhase T C → Prop
  | .deletingToken _ raw covered => ∀ t, covered = some t → w.minted t = true ∧ (raw = t ∨ w.Dead t)
  | .deletingMapping _ covered => ∀ t, covered = some t → w.Dead t
  | .committing _ covered => ∀ t, covered = some t → w.Dead t
  | _ => True

structure World.Safe (w : World T C K) : Prop where
  kills : ∀ k, (w.kill k).Safe w
  revoked : ∀ t, w.revoked t = true → w.Dead t

theorem World.Keeps.dead {w w' : World T C K} (hk : w.Keeps w') {t : T} (h : w.Dead t) : w'.Dead t :=
  ⟨hk.minted t h.1, hk.gone t h.1 h.2⟩

theorem KillPhase.Safe.keeps {w w' : World T C K} (hk : w.Keeps w') {k : KillPhase T C} (h : k.Safe w) :
    k.Safe w' := by
  cases k with
  | idle | completed => trivial
  | deletingToken c raw covered =>
    intro t ht
    obtain ⟨hm, hr⟩ := h t ht
    exact ⟨hk.minted t hm, hr.imp id hk.dead⟩
  | deletingMapping c covered => exact fun t ht => hk.dead (h t ht)
  | committing c covered => exact fun t ht => hk.dead (h t ht)

theorem safe_of_same {w w' : World T C K} (hs : w.Safe) (hk : w.Keeps w') (hkill : w'.kill = w.kill)
    (hrev : w'.revoked = w.revoked) : w'.Safe := by
  refine ⟨?_, ?_⟩
  · intro k; rw [hkill]; exact (hs.kills k).keeps hk
  · intro t ht; rw [hrev] at ht; exact hk.dead (hs.revoked t ht)

theorem safe_of_update [DecidableEq K] {w w' : World T C K} (hs : w.Safe) (hk : w.Keeps w') {k : K} {p : KillPhase T C}
    (hkill : w'.kill = Function.update w.kill k p) (hp : p.Safe w')
    (hrev : ∀ t, w'.revoked t = true → w.revoked t = true ∨ w'.Dead t) : w'.Safe := by
  refine ⟨?_, ?_⟩
  · intro j
    rw [hkill]
    by_cases hj : j = k
    · subst hj; rw [Function.update_self]; exact hp
    · rw [Function.update_of_ne hj]; exact (hs.kills j).keeps hk
  · intro t ht
    rcases hrev t ht with hr | hd
    · exact hk.dead (hs.revoked t hr)
    · exact hd

theorem initial_safe : (World.initial : World T C K).Wf ∧ (World.initial : World T C K).Safe := by
  refine ⟨⟨?_, ?_, ?_⟩, ⟨?_, ?_⟩⟩
  · intro t h; exact absurd rfl h
  · intro c hd h; cases h
  · intro c raw t h; cases h
  · intro k; trivial
  · intro t h; cases h

/-! ## Steps -/

variable [DecidableEq T] [DecidableEq C] [DecidableEq K]

/-- Every way to take a step. -/
inductive World.Moves (cfg : RelayConfig) (w : World T C K) : Act T C K → World T C K → Prop where
  | createSession {t : T} {payload : TokenPayload} {ttl : Nat} (hminted : w.minted t = false) :
      Moves cfg w (.createSession t payload ttl)
        { w with token := Function.update w.token t ((w.token t).setex w.clock ttl payload)
                 minted := Function.update w.minted t true }
  | connect {c : C} {t : T} {fp : String} {enforce : Bool} (hc : w.handler c = none) :
      Moves cfg w (.connect c t fp enforce)
        { w with handler := Function.update w.handler c (some ⟨t, fp, enforce, .resolving⟩) }
  | handle {c : C} {hd : Handler T} {key : Key TokenPayload} {phase : HandlerPhase} (hc : w.handler c = some hd)
      (hn : hd.next cfg.digest w.clock (w.token hd.token) = some (key, phase)) :
      Moves cfg w (.handle c)
        { w with token := Function.update w.token hd.token key
                 handler := Function.update w.handler c (some { hd with phase := phase }) }
  | storeMapping {c : C} {t : T} {fp : String} {enforce : Bool} (hc : w.handler c = some ⟨t, fp, enforce, .starting⟩) :
      Moves cfg w (.storeMapping c)
        { w with mapping := Function.update w.mapping c ((w.mapping c).setex w.clock cfg.yamlTokenTtl.toNat t)
                 handler := Function.update w.handler c (some ⟨t, fp, enforce, .relaying⟩) }
  | refuseMapping {c : C} {t : T} {fp : String} {enforce : Bool} (hc : w.handler c = some ⟨t, fp, enforce, .starting⟩) :
      Moves cfg w (.storeMapping c)
        { w with handler := Function.update w.handler c (some ⟨t, fp, enforce, .rejected⟩) }
  | finish {c : C} {finalized : Bool} {t : T} {fp : String} {enforce : Bool}
      (hc : w.handler c = some ⟨t, fp, enforce, .relaying⟩) :
      Moves cfg w (.finish c finalized)
        { w with mapping := Function.update w.mapping c (if finalized then (w.mapping c).delete else w.mapping c)
                 handler := Function.update w.handler c (some ⟨t, fp, enforce, .finished⟩) }
  | deleteSession {t : T} :
      Moves cfg w (.deleteSession t) { w with token := Function.update w.token t (w.token t).delete }
  | killReadNone {k : K} {c : C} (hk : w.kill k = .idle) (hmap : (w.mapping c).get = none) :
      Moves cfg w (.killRead k c) { w with kill := Function.update w.kill k (.committing c (w.openToken c)) }
  | killRead {k : K} {c : C} {t : T} (hk : w.kill k = .idle) (hmap : (w.mapping c).get = some t) :
      Moves cfg w (.killRead k c) { w with kill := Function.update w.kill k (.deletingToken c t (w.openToken c)) }
  | killToken {k : K} {c : C} {t : T} {covered : Option T} (hk : w.kill k = .deletingToken c t covered) :
      Moves cfg w (.killNext k)
        { w with token := Function.update w.token t (w.token t).delete
                 kill := Function.update w.kill k (.deletingMapping c covered) }
  | killMapping {k : K} {c : C} {covered : Option T} (hk : w.kill k = .deletingMapping c covered) :
      Moves cfg w (.killNext k)
        { w with mapping := Function.update w.mapping c (w.mapping c).delete
                 kill := Function.update w.kill k (.committing c covered) }
  | killCommit {k : K} {c : C} {covered : Option T} (hk : w.kill k = .committing c covered) :
      Moves cfg w (.killNext k) { w with kill := Function.update w.kill k .completed, revoked := w.revoke c }
  | tick {ms : Nat} :
      Moves cfg w (.tick ms)
        { w with clock := w.clock + ms
                 token := fun t => (w.token t).expire (w.clock + ms)
                 mapping := fun c => (w.mapping c).expire (w.clock + ms) }

theorem step_moves {cfg : RelayConfig} {w w' : World T C K} {a : Act T C K} (h : w.step cfg a = some w') :
    w.Moves cfg a w' := by
  cases a with
  | createSession t payload ttl =>
    simp only [World.step] at h
    split_ifs at h with hf
    cases h
    exact .createSession hf.1
  | connect c t fp enforce =>
    simp only [World.step] at h
    split at h <;> cases h
    exact .connect ‹_›
  | handle c =>
    simp only [World.step] at h
    split at h
    · cases h
    · split at h <;> cases h
      exact .handle ‹_› ‹_›
  | storeMapping c =>
    simp only [World.step] at h
    split at h
    · split_ifs at h <;> cases h
      · exact .storeMapping ‹_›
      · exact .refuseMapping ‹_›
    · cases h
  | finish c finalized =>
    simp only [World.step] at h
    split at h <;> cases h
    exact .finish ‹_›
  | deleteSession t =>
    cases h
    exact .deleteSession
  | killRead k c =>
    simp only [World.step] at h
    split at h
    · split at h <;> cases h
      · exact .killReadNone ‹_› ‹_›
      · exact .killRead ‹_› ‹_›
    · cases h
  | killNext k =>
    simp only [World.step] at h
    split at h <;> cases h
    · exact .killToken ‹_›
    · exact .killMapping ‹_›
    · exact .killCommit ‹_›
  | tick ms =>
    cases h
    exact .tick

theorem step_keeps {cfg : RelayConfig} {w w' : World T C K} {a : Act T C K} (hw : w.Wf)
    (h : w.step cfg a = some w') : w.Keeps w' := by
  cases step_moves h with
  | @createSession t payload ttl hminted =>
    refine ⟨?_, ?_, ?_, ?_⟩
    · intro u
      by_cases hu : u = t
      · subst hu; simp only [Function.update_self]; exact setex_later ..
      · simp only [Function.update_of_ne hu]; exact later_refl _
    · intro u hm
      by_cases hu : u = t
      · subst hu; simp
      · simpa [Function.update_of_ne hu] using hm
    · intro u hm hg
      have hu : u ≠ t := by rintro rfl; simp [hminted] at hm
      simpa [Function.update_of_ne hu] using hg
    · intro u hg hg'
      by_cases hu : u = t
      · subst hu; simp
      · simp only [Function.update_of_ne hu] at hg'; exact absurd hg hg'
  | handle hc hn =>
    obtain ⟨hl, hg, _⟩ := next_spec (hw.handlers _ _ hc) (hw.minted _) hn
    exact .of_update rfl rfl hl hg
  | deleteSession => exact .of_update rfl rfl (delete_later _) (fun _ => get_delete _)
  | killToken => exact .of_update rfl rfl (delete_later _) (fun _ => get_delete _)
  | connect | storeMapping | refuseMapping | finish | killReadNone | killRead | killMapping | killCommit =>
    exact .of_eq rfl rfl
  | tick =>
    exact ⟨fun t => expire_later .., fun t hm => hm, fun t _ hg => get_expire_none _ hg,
      fun t hg hg' => absurd (get_expire_none _ hg) hg'⟩

/-- What a step does to one connection and its mapping. -/
inductive ConnMove (cfg : RelayConfig) (w w' : World T C K) (c : C) : Prop where
  | stay (handler : w'.handler c = w.handler c)
      (mapping : (w'.mapping c).get = (w.mapping c).get ∨ (w'.mapping c).get = none)
  | connect (hd : Handler T) (before : w.handler c = none) (after : w'.handler c = some hd)
      (phase : hd.phase = .resolving) (mapping : w'.mapping c = w.mapping c)
  | handle (hd : Handler T) (key : Key TokenPayload) (phase : HandlerPhase) (before : w.handler c = some hd)
      (next : hd.next cfg.digest w.clock (w.token hd.token) = some (key, phase))
      (after : w'.handler c = some { hd with phase := phase })
      (token : w'.token = Function.update w.token hd.token key) (minted : w'.minted = w.minted)
      (mapping : w'.mapping c = w.mapping c)
  | store (hd : Handler T) (before : w.handler c = some hd) (phase : hd.phase = .starting)
      (after : w'.handler c = some { hd with phase := .relaying }) (minted : w'.minted = w.minted)
      (mapping : (w'.mapping c).get = some hd.token)
  | refuse (hd : Handler T) (before : w.handler c = some hd) (phase : hd.phase = .starting)
      (after : w'.handler c = some { hd with phase := .rejected }) (mapping : w'.mapping c = w.mapping c)
  | finish (hd : Handler T) (before : w.handler c = some hd) (phase : hd.phase = .relaying)
      (after : w'.handler c = some { hd with phase := .finished }) (minted : w'.minted = w.minted)

theorem conn_move {cfg : RelayConfig} {w w' : World T C K} {a : Act T C K} (h : w.step cfg a = some w')
    (c : C) : ConnMove cfg w w' c := by
  cases step_moves h with
  | createSession | deleteSession | killReadNone | killRead | killToken | killCommit =>
    exact .stay rfl (Or.inl rfl)
  | @connect d t fp enforce hd =>
    by_cases hc : c = d
    · subst hc
      exact .connect ⟨t, fp, enforce, .resolving⟩ hd (by simp) rfl rfl
    · exact .stay (by simp [Function.update_of_ne hc]) (Or.inl rfl)
  | @handle d hd key phase hh hn =>
    by_cases hc : c = d
    · subst hc
      exact .handle hd key phase hh hn (by simp) rfl rfl rfl
    · exact .stay (by simp [Function.update_of_ne hc]) (Or.inl rfl)
  | @storeMapping d t fp enforce hh =>
    by_cases hc : c = d
    · subst hc
      exact .store _ hh rfl (by simp) rfl (by simp)
    · exact .stay (by simp [Function.update_of_ne hc]) (Or.inl (by simp [Function.update_of_ne hc]))
  | @refuseMapping d t fp enforce hh =>
    by_cases hc : c = d
    · subst hc
      exact .refuse _ hh rfl (by simp) rfl
    · exact .stay (by simp [Function.update_of_ne hc]) (Or.inl rfl)
  | @finish d finalized t fp enforce hh =>
    by_cases hc : c = d
    · subst hc
      exact .finish _ hh rfl (by simp) rfl
    · exact .stay (by simp [Function.update_of_ne hc]) (Or.inl (by simp [Function.update_of_ne hc]))
  | @killMapping k d covered _ =>
    by_cases hc : c = d
    · subst hc
      exact .stay rfl (Or.inr (by simp))
    · exact .stay rfl (Or.inl (by simp [Function.update_of_ne hc]))
  | @tick ms =>
    refine .stay rfl ?_
    rcases get_expire (w.mapping c) (w.clock + ms) with hn | he
    · exact Or.inr hn
    · exact Or.inl (by simp [he])

theorem step_wf {cfg : RelayConfig} (w : World T C K) (a : Act T C K) (w' : World T C K) (hw : w.Wf)
    (h : w.step cfg a = some w') : w'.Wf := by
  have hk := step_keeps hw h
  refine ⟨?_, ?_, ?_⟩
  · intro t ht
    by_cases hg : (w.token t).get = none
    · exact hk.fresh t hg ht
    · exact hk.minted t (hw.minted t hg)
  · intro c hd hc
    cases conn_move h c with
    | stay hh _ => exact hk.handler_ok hw (hh ▸ hc)
    | connect d _ ha hp _ =>
      rw [ha] at hc; cases hc
      simp [Handler.Ok, hp]
    | handle d key phase hb hn ha ht hm _ =>
      rw [ha] at hc; cases hc
      have := (next_spec (hw.handlers c d hb) (hw.minted d.token) hn).2.2.1
      simpa [ht, hm] using this
    | store d hb hp ha hm _ =>
      rw [ha] at hc; cases hc
      have := hw.handlers c d hb
      simpa [Handler.Ok, hp, hm] using this
    | refuse d hb hp ha _ => rw [ha] at hc; cases hc; trivial
    | finish d hb hp ha hm =>
      rw [ha] at hc; cases hc
      have := hw.handlers c d hb
      simpa [Handler.Ok, hp, hm] using this
  · intro c raw t hmap ht
    cases conn_move h c with
    | stay hh hm =>
      have ht₀ : w.openToken c = some t := by simpa [World.openToken, hh] using ht
      rcases hm with hm | hm
      · exact hw.mapped c raw t (hm ▸ hmap) ht₀
      · rw [hm] at hmap; cases hmap
    | connect d _ ha hp _ =>
      rw [openToken_of_handler ha (by simp [hp])] at ht; cases ht
    | handle d key phase hb hn ha _ _ _ =>
      have hp := (next_spec (hw.handlers c d hb) (hw.minted d.token) hn).2.2.2.1
      rw [openToken_of_handler ha hp] at ht; cases ht
    | store d hb _ ha _ hm =>
      rw [hm] at hmap; cases hmap
      rw [openToken_relaying ha rfl] at ht; cases ht
      rfl
    | refuse d hb hp ha _ =>
      rw [openToken_of_handler ha (by simp)] at ht; cases ht
    | finish d hb hp ha _ =>
      rw [openToken_of_handler ha (by simp)] at ht; cases ht

theorem step_safe {cfg : RelayConfig} (w : World T C K) (a : Act T C K) (w' : World T C K)
    (hi : w.Wf ∧ w.Safe) (hg : KillSeesMapping w a) (h : w.step cfg a = some w') : w'.Wf ∧ w'.Safe := by
  obtain ⟨hw, hs⟩ := hi
  have hk := step_keeps hw h
  refine ⟨step_wf w a w' hw h, ?_⟩
  cases step_moves h with
  | createSession | connect | handle | storeMapping | refuseMapping | finish | deleteSession | tick =>
    exact safe_of_same hs hk rfl rfl
  | killReadNone _ hmap =>
    -- The mapping is gone, so the kill deletes nothing.
    refine safe_of_update hs hk rfl ?_ (fun t ht => Or.inl ht)
    intro t ht
    simp only [KillSeesMapping, ht, hmap] at hg
    exact hk.dead ⟨openToken_minted hw ht, by simpa using hg⟩
  | killRead _ hmap =>
    refine safe_of_update hs hk rfl ?_ (fun t ht => Or.inl ht)
    intro t ht
    exact ⟨openToken_minted hw ht, Or.inl (hw.mapped _ _ t hmap ht)⟩
  | @killToken k c raw covered hph =>
    have hsafe := hs.kills k
    rw [hph] at hsafe
    refine safe_of_update hs hk rfl ?_ (fun t ht => Or.inl ht)
    intro t ht
    obtain ⟨hm, hr⟩ := hsafe t ht
    rcases hr with rfl | hd
    · exact ⟨hm, by simp⟩
    · exact hk.dead hd
  | @killMapping k c covered hph =>
    have hsafe := hs.kills k
    rw [hph] at hsafe
    exact safe_of_update hs hk rfl (fun t ht => hk.dead (hsafe t ht)) (fun t ht => Or.inl ht)
  | @killCommit k c covered hph =>
    have hsafe := hs.kills k
    rw [hph] at hsafe
    refine safe_of_update hs hk rfl trivial ?_
    intro t ht
    cases hu : w.openToken c with
    | none =>
      simp only [World.revoke, hu] at ht
      exact Or.inl ht
    | some u =>
      simp only [World.revoke, hu] at ht
      by_cases htu : t = u
      · subst htu
        simp only [KillSeesMapping, hph, hu] at hg
        have hcovered : some t = covered := hg.resolve_left (by simp)
        exact Or.inr (hk.dead (hsafe t hcovered.symm))
      · rw [Function.update_of_ne htu] at ht
        exact Or.inl ht

/-! ## Kill and token -/

theorem killed_token_dead (cfg : RelayConfig) (acts : List (Act T C K)) (w : World T C K)
    (hrun : run (World.step cfg) .initial acts = some w)
    (hall : Along (World.step cfg) KillSeesMapping .initial acts) :
    ∀ t, w.revoked t = true → (w.token t).get = none := by
  intro t ht
  exact ((run_inv step_safe hrun hall initial_safe).2.revoked t ht).2

/-! ## A mapping that expires first -/

/-- The YAML default of 300 seconds. No connection below asks for a digest. -/
def yamlDefault : RelayConfig :=
  ⟨300, fun _ => ⟨"e3b0c44298fc1c149afbf4c8996fb92427ae41e4649b934ca495991b7852b855", by decide⟩⟩

def hourToken : TokenPayload := ⟨"alice", "", "10.0.0.5", 3389, none, none, none⟩

/-- A token of one hour, as saved in the settings, and a kill after `ms` milliseconds. -/
def killAfter (ms : Nat) : List (Act Unit Unit Unit) :=
  [.createSession () hourToken 3600, .connect () () "" false, .handle (), .storeMapping (), .tick ms,
    .killRead () ()]

/-- After 301 seconds the kill finds no mapping, completes, and the token still resolves. -/
theorem token_outlives_kill :
    ∃ w, run (World.step yamlDefault) .initial (killAfter 301000 ++ [.killNext ()]) = some w ∧
      w.revoked () = true ∧ (w.token ()).get = some hourToken :=
  ⟨_, rfl, rfl, rfl⟩

theorem killed_token_dead_in_time :
    ∃ w, run (World.step yamlDefault) .initial
        (killAfter 299000 ++ [.killNext (), .killNext (), .killNext ()]) = some w ∧
      w.revoked () = true ∧ (w.token ()).get = none := by
  obtain ⟨w, hrun, hrev⟩ : ∃ w, run (World.step yamlDefault) .initial
      (killAfter 299000 ++ [.killNext (), .killNext (), .killNext ()]) = some w ∧ w.revoked () = true :=
    ⟨_, rfl, rfl⟩
  exact ⟨w, hrun, hrev, killed_token_dead yamlDefault _ w hrun (by decide) () hrev⟩

end RdpProxy.Store
